import Mailroom.Proofs.Session.Mirrored
import Mailroom.Rules.Run

/-! Runs of rules on two kinds of sessions.

If the calls of two kinds of sessions are alike, so are runs of rules on them: they come to the same reports
or the same failure, and spend the same time pausing (`run_alike`). -/
namespace Mailroom.Rules

/-- The sessions of the runs are related, and the runs know the same. -/
structure Beside {σ τ : Type} (R : σ → τ → Prop) (run : Run σ) (run' : Run τ) : Prop where
  session : R run.session run'.session
  folders : run.folders = run'.folders
  elapsed : run.elapsed = run'.elapsed

section
variable {σ τ α : Type} {R : σ → τ → Prop}

theorem onSession_alike {op : Mail σ α} {op' : Mail τ α} (h : Alike R op op') :
    Alike (Beside R) (onSession op) (onSession op') := by
  intro run run' hrun
  obtain ⟨hresult, hafter⟩ := h run.session run'.session hrun.session
  exact ⟨hresult, hafter, hrun.folders, hrun.elapsed⟩

theorem pause_alike : Alike (Beside R) (pause : Mail (Run σ) Unit) pause :=
  .modify fun _ _ hrun => ⟨hrun.session, hrun.folders, congrArg (· + pacing) hrun.elapsed⟩

variable [MailSession σ] [MailSession τ] (h : Mirrors σ τ R) (inbox : String) (dryRun : Bool)
include h

theorem knownFolders_alike : Alike (Beside R) (knownFolders inbox : Mail (Run σ) _) (knownFolders inbox) := by
  refine .get_bind fun run run' hrun => ?_
  rw [hrun.folders]
  rcases run'.folders with _ | folders
  · refine (onSession_alike h.listFolders.lift).bind fun listed => ?_
    exact .bind (.modify fun _ _ hrun => ⟨hrun.session, rfl, hrun.elapsed⟩) fun _ => .pure _
  · exact .pure folders

theorem provide_alike (folder : String) :
    Alike (Beside R) (provide folder : Mail (Run σ) Unit) (provide folder) := by
  refine (onSession_alike (h.createFolder folder).lift).bind fun _ => .modify fun run run' hrun => ?_
  exact ⟨hrun.session, congrArg (Option.map (·.insert folder)) hrun.folders, hrun.elapsed⟩

theorem moveTo_alike (uids : UidSet) (folder : String) :
    Alike (Beside R) (moveTo inbox dryRun uids folder : Mail (Run σ) Bool) (moveTo inbox dryRun uids folder) := by
  refine (knownFolders_alike h inbox).bind fun known => .ite (.pure _) ?_
  have hmove : Alike (Beside R)
      (onSession (Mail.mutate (.moveTo folder) (MailSession.moveOrCopy uids folder)) >>= fun _ =>
        pause >>= fun _ => pure (!known.contains folder) : Mail (Run σ) Bool)
      (onSession (Mail.mutate (.moveTo folder) (MailSession.moveOrCopy uids folder)) >>= fun _ =>
        pause >>= fun _ => pure (!known.contains folder)) :=
    (onSession_alike (h.moveOrCopy_alike uids folder).lift).bind fun _ => pause_alike.bind fun _ => .pure _
  exact .ite ((provide_alike h folder).bind fun _ => hmove) hmove

theorem delete_alike (uids : UidSet) :
    Alike (Beside R) (delete dryRun uids : Mail (Run σ) Unit) (delete dryRun uids) := by
  refine .ite (.pure _) ((onSession_alike (h.deleteMessages uids).lift).bind fun _ => ?_)
  exact (onSession_alike (h.expunge uids).lift).bind fun _ => pause_alike

theorem act_alike (uids : UidSet) (action : Action) :
    Alike (Beside R) (act inbox dryRun uids action : Mail (Run σ) Bool) (act inbox dryRun uids action) := by
  cases action with
  | move folder => exact moveTo_alike h inbox dryRun uids folder
  | delete => exact (delete_alike h dryRun uids).bind fun _ => .pure false

theorem actAll_alike (uids : UidSet) (actions : List Action) :
    Alike (Beside R) (actAll inbox dryRun uids actions : Mail (Run σ) (List ActionReport))
      (actAll inbox dryRun uids actions) := by
  induction actions with
  | nil => exact .pure []
  | cons action rest ih =>
    exact (act_alike h inbox dryRun uids action).bind fun _ => ih.bind fun _ => .pure _

theorem apply_alike (rule : Rule) :
    Alike (Beside R) (apply inbox dryRun rule : Mail (Run σ) RuleReport) (apply inbox dryRun rule) := by
  refine (onSession_alike (rule.spec.resolve_alike h.searches inbox rule.merge)).bind fun matched => ?_
  have hacts : Alike (Beside R)
      (actAll inbox dryRun matched rule.actions >>= fun actions =>
        pure ⟨rule.name, matched.size, .acted actions⟩ : Mail (Run σ) RuleReport)
      (actAll inbox dryRun matched rule.actions >>= fun actions =>
        pure ⟨rule.name, matched.size, .acted actions⟩) :=
    (actAll_alike h inbox dryRun matched rule.actions).bind fun _ => .pure _
  refine .ite (.pure _) (.ite ?_ hacts)
  exact (onSession_alike (h.selectFolder inbox false).lift).bind fun _ => hacts

theorem applyAll_alike (rules : List Rule) :
    Alike (Beside R) (applyAll inbox dryRun rules : Mail (Run σ) (List RuleReport))
      (applyAll inbox dryRun rules) := by
  induction rules with
  | nil => exact .pure []
  | cons rule rest ih => exact (apply_alike h inbox dryRun rule).bind fun _ => ih.bind fun _ => .pure _

/-- Runs of rules on sessions whose calls are alike come to the same. -/
theorem run_alike (known : Option (SortedSet String)) (rules : List Rule) {s : σ} {t : τ} (hst : R s t) :
    (run inbox known rules dryRun s).1 = (run inbox known rules dryRun t).1 ∧
      (run inbox known rules dryRun s).2.1 = (run inbox known rules dryRun t).2.1 ∧
      R (run inbox known rules dryRun s).2.2 (run inbox known rules dryRun t).2.2 := by
  obtain ⟨hresult, hafter⟩ := applyAll_alike h inbox dryRun rules ⟨s, known, 0⟩ ⟨t, known, 0⟩ ⟨hst, rfl, rfl⟩
  exact ⟨hresult, hafter.elapsed, hafter.session⟩

end

end Mailroom.Rules
