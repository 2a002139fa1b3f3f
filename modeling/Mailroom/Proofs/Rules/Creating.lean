import Mailroom.Proofs.Rules.DryRun
import Mailroom.Proofs.Session.Calls

/-! Rules that create folders say so.

Of the calls that a run of rules makes only one manages folders: a folder that is missing is created, and
then the report of the action says so. So a run that succeeds, and reports of no folder that it created it,
has kept to what all other calls do (`applyAll_tells`), on any kind of session. -/
namespace Mailroom

/-- Calls keep the session within `R` unless they manage folders. -/
def KeepsWithin (σ : Type) [MailSession σ] (R : σ → σ → Prop) : Prop :=
  ∀ call : SessionCall, call.managesFolders = false → Within R (call.perform : SessionM σ Unit)

theorem within_of_outcome {σ α : Type} {R : σ → σ → Prop} {op : SessionM σ α} (h : Within R (outcome op)) :
    Within R op := fun s => by
  have hs := h s
  rwa [outcome_run] at hs

namespace KeepsWithin
variable {σ : Type} [MailSession σ] {R : σ → σ → Prop} (h : KeepsWithin σ R)
include h

theorem selectFolder (folder : String) (readOnly : Bool) :
    Within R (MailSession.selectFolder folder readOnly : SessionM σ Mailbox.Status) :=
  within_of_outcome (h (.selectFolder folder readOnly) rfl)

theorem searches : SearchesWithin σ R where
  open_ folder := h.selectFolder folder true
  search keys := within_of_outcome (h (.search keys) rfl)
  fetch uids attributes := within_of_outcome (h (.fetch uids attributes) rfl)

theorem listFolders : Within R (MailSession.listFolders : SessionM σ (List Mailbox.Listing)) :=
  within_of_outcome (h .listFolders rfl)

theorem moveOrCopy [IsPreorder σ R] (uids : UidSet) (folder : String) :
    Within R (MailSession.moveOrCopy uids folder : SessionM σ Unit) := by
  refine .bind .get fun s => .ite (h (.moveMessages uids folder) rfl) ?_
  exact (h (.copyMessages uids folder) rfl).bind fun _ =>
    (h (.deleteMessages uids) rfl).bind fun _ => h (.expunge uids) rfl

theorem remove [IsPreorder σ R] (uids : UidSet) :
    Within R (Mail.mutate .delete (MailSession.deleteMessages uids) >>= fun _ =>
      Mail.mutate .expunge (MailSession.expunge uids) : Mail σ Unit) :=
  (h (.deleteMessages uids) rfl).lift.bind fun _ => (h (.expunge uids) rfl).lift

end KeepsWithin

namespace Rules
variable {σ : Type} {R : σ → σ → Prop}

/-- The sessions of the two are related by `R`. -/
def Along (R : σ → σ → Prop) (run run' : Run σ) : Prop := R run.session run'.session

theorem onSession_along {α : Type} {op : Mail σ α} (h : Within R op) : Within (Along R) (onSession op) :=
  fun run => h run.session

variable [IsPreorder σ R]

instance along_isPreorder : IsPreorder (Run σ) (Along R) where
  refl run := Std.Refl.refl run.session
  trans _ _ _ h h' := IsTrans.trans (r := R) _ _ _ h h'

theorem pause_along : Within (Along R) (pause : Mail (Run σ) Unit) := fun run => Std.Refl.refl run.session

variable [MailSession σ] (h : KeepsWithin σ R) (inbox : String)
include h

/-- A move that does not say that it created its folder did not. -/
theorem moveTo_tells (uids : UidSet) (folder : String) (run : Run σ) :
    Ends (moveTo inbox false uids folder) run (fun created after => created = false → Along R run after)
      fun _ _ => True := by
  refine .bind ((knownFolders_within h.listFolders inbox).ends run) (fun _ _ _ => trivial) ?_
  intro known middle hknown
  rcases hmissing : !known.contains folder with _ | _
  · simp only [Bool.false_eq_true, if_false]
    have hmove : Within (Along R) (onSession (Mail.mutate (.moveTo folder)
        (MailSession.moveOrCopy uids folder)) >>= fun _ => pause >>= fun _ => pure false :
          Mail (Run σ) Bool) :=
      (onSession_along (h.moveOrCopy uids folder).lift).bind fun _ => pause_along.bind fun _ => .pure false
    refine (hmove.ends middle).mono (fun created after hafter _ => ?_) fun _ _ _ => trivial
    exact IsTrans.trans (r := R) _ _ _ hknown.session hafter
  · -- The folder is created, and whatever follows, this is said in the end.
    simp only [Bool.false_eq_true, if_false, if_true]
    refine .bind (.trivially _ _) (fun _ _ _ => trivial) fun _ _ _ => ?_
    refine .bind (.trivially _ _) (fun _ _ _ => trivial) fun _ _ _ => ?_
    exact .bind (.trivially _ _) (fun _ _ _ => trivial) fun _ _ _ => .ok rfl nofun

theorem act_tells (uids : UidSet) (action : Action) (run : Run σ) :
    Ends (act inbox false uids action) run (fun created after => created = false → Along R run after)
      fun _ _ => True := by
  cases action with
  | move folder => exact moveTo_tells h inbox uids folder run
  | delete =>
    have hdelete : Within (Along R) (act inbox false uids .delete : Mail (Run σ) Bool) := by
      refine .bind ?_ fun _ => .pure false
      refine (onSession_along (h (.deleteMessages uids) rfl).lift).bind fun _ => ?_
      exact (onSession_along (h (.expunge uids) rfl).lift).bind fun _ => pause_along
    exact (hdelete.ends run).mono (fun _ _ hafter _ => hafter) fun _ _ _ => trivial

theorem actAll_tells (uids : UidSet) (actions : List Action) (run : Run σ) :
    Ends (actAll inbox false uids actions) run
      (fun reports after => (∀ r ∈ reports, (r.createdFolder && !r.dryRun) = false) → Along R run after)
      fun _ _ => True := by
  induction actions generalizing run with
  | nil => exact .ok rfl fun _ => Std.Refl.refl run.session
  | cons action rest ih =>
    refine .bind (act_tells h inbox uids action run) (fun _ _ _ => trivial) fun created middle hcreated => ?_
    refine .bind (ih middle) (fun _ _ _ => trivial) fun reports after hreports => .ok rfl fun hnone => ?_
    obtain ⟨hfirst, hrest⟩ := List.forall_mem_cons.mp hnone
    exact IsTrans.trans (r := R) _ _ _ (hcreated (by simpa using hfirst)) (hreports hrest)

theorem apply_tells (rule : Rule) (run : Run σ) :
    Ends (apply inbox false rule) run
      (fun report after => report.createdFolder = false → Along R run after) fun _ _ => True := by
  have hresolve := onSession_along (rule.spec.resolve_within h.searches inbox rule.merge)
  refine .bind (hresolve.ends run) (fun _ _ _ => trivial) fun matched middle hmatched => ?_
  rcases hempty : matched.isEmpty with _ | _
  · simp only [Bool.false_eq_true, if_false, Bool.not_false, if_true]
    have hselect : Within (Along R) (onSession (Mail.query inbox (MailSession.selectFolder inbox false)) :
        Mail (Run σ) Mailbox.Status) := onSession_along (h.selectFolder inbox false).lift
    refine .bind (hselect.ends middle) (fun _ _ _ => trivial) fun _ opened hopened => ?_
    refine .bind (actAll_tells h inbox matched rule.actions opened) (fun _ _ _ => trivial)
      fun reports after hreports => .ok rfl fun hnone => ?_
    have hkept : Along R opened after := hreports fun r hr => by
      simpa using List.any_eq_false.mp hnone r hr
    exact IsTrans.trans (r := R) _ _ _ hmatched (IsTrans.trans (r := R) _ _ _ hopened hkept)
  · exact .ok rfl fun _ => hmatched

/-- A run that succeeds and reports of no folder that it created it has created none. -/
theorem applyAll_tells (rules : List Rule) (run : Run σ) :
    Ends (applyAll inbox false rules) run
      (fun reports after => (∀ r ∈ reports, r.createdFolder = false) → Along R run after)
      fun _ _ => True := by
  induction rules generalizing run with
  | nil => exact .ok rfl fun _ => Std.Refl.refl run.session
  | cons rule rest ih =>
    refine .bind (apply_tells h inbox rule run) (fun _ _ _ => trivial) fun report middle hreport => ?_
    refine .bind (ih middle) (fun _ _ _ => trivial) fun reports after hreports => .ok rfl fun hnone => ?_
    obtain ⟨hfirst, hrest⟩ := List.forall_mem_cons.mp hnone
    exact IsTrans.trans (r := R) _ _ _ (hreport hfirst) (hreports hrest)

/-- Rules keep the session within `R` in a dry run, and else if they succeed and report of no folder that
they created it. -/
theorem run_within (known : Option (SortedSet String)) (rules : List Rule) (dryRun : Bool) (s : σ)
    (hnone : dryRun = true ∨ ∃ reports, (Rules.run inbox known rules dryRun s).1 = .ok reports ∧
      reports.any RuleReport.createdFolder = false) :
    R s (Rules.run inbox known rules dryRun s).2.2 := by
  cases dryRun with
  | true => exact (applyAll_dry_within h.searches h.listFolders inbox rules ⟨s, known, 0⟩).session
  | false =>
    obtain ⟨reports, hok, hnone⟩ := hnone.resolve_left Bool.false_ne_true
    have hends := applyAll_tells h inbox rules ⟨s, known, 0⟩
    unfold Ends at hends
    rcases hrun : (applyAll inbox false rules : Mail (Run σ) _) ⟨s, known, 0⟩ with ⟨e | reports', after⟩
    · rw [Rules.run, hrun] at hok
      cases hok
    · rw [Rules.run, hrun] at hok ⊢
      cases hok
      rw [hrun] at hends
      exact hends fun r hr => by simpa using List.any_eq_false.mp hnone r hr

end Rules

end Mailroom
