import Mailroom.Proofs.Session.Running
import Mailroom.Search.Resolve

/-! Operations that come to the same on two kinds of sessions.

`Alike R op op'` says that from states related by `R` both operations come to the same result, and to states
that are so related again. It passes from the parts of a sequence to the whole (`Alike.bind`). Sessions of
one kind are mirrored by those of another if all calls are alike but the logout (`Mirrors`); then what is
made of these calls is alike too, a search (`resolve_alike`) as well as a move (`moveOrCopy_alike`). -/
namespace Mailroom

/-- From related states both operations come to the same result and to related states. -/
def Alike {ε σ τ α : Type} (R : σ → τ → Prop) (op : ExceptT ε (StateM σ) α)
    (op' : ExceptT ε (StateM τ) α) : Prop :=
  ∀ s t, R s t → (op s).1 = (op' t).1 ∧ R (op s).2 (op' t).2

namespace Alike
variable {ε σ τ α β : Type} {R : σ → τ → Prop} {op : ExceptT ε (StateM σ) α}
  {op' : ExceptT ε (StateM τ) α} {next : α → ExceptT ε (StateM σ) β} {next' : α → ExceptT ε (StateM τ) β}

theorem pure (a : α) : Alike R (Pure.pure a : ExceptT ε (StateM σ) α) (Pure.pure a) := fun _ _ h => ⟨rfl, h⟩

theorem throw (e : ε) :
    Alike R (MonadExcept.throw e : ExceptT ε (StateM σ) α) (MonadExcept.throw e) := fun _ _ h => ⟨rfl, h⟩

theorem modify {f : σ → σ} {g : τ → τ} (h : ∀ s t, R s t → R (f s) (g t)) :
    Alike R (modify f : ExceptT ε (StateM σ) PUnit) (modify g) := fun s t hst => ⟨rfl, h s t hst⟩

theorem bind (h : Alike R op op') (hnext : ∀ a, Alike R (next a) (next' a)) :
    Alike R (op >>= next) (op' >>= next') := by
  intro s t hst
  obtain ⟨hresult, hafter⟩ := h s t hst
  rw [bind_run, bind_run]
  rcases hop : op s with ⟨e | a, s'⟩ <;> rcases hop' : op' t with ⟨e' | a', t'⟩ <;>
    rw [hop, hop'] at hresult hafter <;> cases hresult
  · exact ⟨rfl, hafter⟩
  · exact hnext a s' t' hafter

/-- A sequence that begins with a look at the state. -/
theorem get_bind {next : σ → ExceptT ε (StateM σ) β} {next' : τ → ExceptT ε (StateM τ) β}
    (h : ∀ s t, R s t → Alike R (next s) (next' t)) : Alike R (get >>= next) (get >>= next') :=
  fun s t hst => h s t hst s t hst

theorem ite {c : Prop} [Decidable c] {other : ExceptT ε (StateM σ) α} {other' : ExceptT ε (StateM τ) α}
    (h : Alike R op op') (hother : Alike R other other') :
    Alike R (if c then op else other) (if c then op' else other') := by
  split
  · exact h
  · exact hother

/-- Operations behind a check that may stop them. -/
theorem guarded {c : Prop} [Decidable c] {stop : ExceptT ε (StateM σ) α} {stop' : ExceptT ε (StateM τ) α}
    {op : ExceptT ε (StateM σ) β} {op' : ExceptT ε (StateM τ) β} (hstop : Alike R stop stop')
    (h : Alike R op op') :
    Alike R (if c then stop >>= fun _ => op else op) (if c then stop' >>= fun _ => op' else op') :=
  .ite (hstop.bind fun _ => h) h

theorem map (f : α → β) (h : Alike R op op') : Alike R (f <$> op) (f <$> op') := by
  intro s t hst
  obtain ⟨hresult, hafter⟩ := h s t hst
  rw [map_run, map_run]
  exact ⟨congrArg (Except.map f) hresult, hafter⟩

theorem lift {explain : SessionError → Failure} {op : SessionM σ α} {op' : SessionM τ α} (h : Alike R op op') :
    Alike R (Mail.lift explain op) (Mail.lift explain op') := by
  intro s t hst
  obtain ⟨hresult, hafter⟩ := h s t hst
  exact ⟨congrArg (Except.mapError explain) hresult, hafter⟩

end Alike

/-- What a search does on the sessions is alike. -/
structure SearchesAlike (σ τ : Type) [MailSession σ] [MailSession τ] (R : σ → τ → Prop) : Prop where
  open_ : ∀ folder, Alike R (MailSession.selectFolder folder true : SessionM σ _)
    (MailSession.selectFolder folder true)
  search : ∀ keys, Alike R (MailSession.search keys : SessionM σ _) (MailSession.search keys)
  fetch : ∀ uids attributes, Alike R (MailSession.fetch uids attributes : SessionM σ _)
    (MailSession.fetch uids attributes)

/-- The calls of the sessions are alike, but for the logout. -/
structure Mirrors (σ τ : Type) [MailSession σ] [MailSession τ] (R : σ → τ → Prop) : Prop where
  capabilities : ∀ s t, R s t → MailSession.capabilities s = MailSession.capabilities t
  listFolders : Alike R (MailSession.listFolders : SessionM σ _) MailSession.listFolders
  selectFolder : ∀ folder readOnly, Alike R (MailSession.selectFolder folder readOnly : SessionM σ _)
    (MailSession.selectFolder folder readOnly)
  search : ∀ keys, Alike R (MailSession.search keys : SessionM σ _) (MailSession.search keys)
  fetch : ∀ uids attributes, Alike R (MailSession.fetch uids attributes : SessionM σ _)
    (MailSession.fetch uids attributes)
  moveMessages : ∀ uids destination, Alike R (MailSession.moveMessages uids destination : SessionM σ _)
    (MailSession.moveMessages uids destination)
  copyMessages : ∀ uids destination, Alike R (MailSession.copyMessages uids destination : SessionM σ _)
    (MailSession.copyMessages uids destination)
  deleteMessages : ∀ uids, Alike R (MailSession.deleteMessages uids : SessionM σ _)
    (MailSession.deleteMessages uids)
  expunge : ∀ uids, Alike R (MailSession.expunge uids : SessionM σ _) (MailSession.expunge uids)
  createFolder : ∀ folder, Alike R (MailSession.createFolder folder : SessionM σ _)
    (MailSession.createFolder folder)
  renameFolder : ∀ old new, Alike R (MailSession.renameFolder old new : SessionM σ _)
    (MailSession.renameFolder old new)
  deleteFolder : ∀ folder, Alike R (MailSession.deleteFolder folder : SessionM σ _)
    (MailSession.deleteFolder folder)

section
variable {σ τ : Type} [MailSession σ] [MailSession τ] {R : σ → τ → Prop}

theorem Mirrors.searches (h : Mirrors σ τ R) : SearchesAlike σ τ R where
  open_ folder := h.selectFolder folder true
  search := h.search
  fetch := h.fetch

theorem Mirrors.moveOrCopy_alike (h : Mirrors σ τ R) (uids : UidSet) (destination : String) :
    Alike R (MailSession.moveOrCopy uids destination : SessionM σ Unit)
      (MailSession.moveOrCopy uids destination) := by
  refine .get_bind fun s t hst => ?_
  rw [h.capabilities s t hst]
  refine .ite (h.moveMessages uids destination) ?_
  exact (h.copyMessages uids destination).bind fun _ => (h.deleteMessages uids).bind fun _ => h.expunge uids

namespace SearchSpec
variable (h : SearchesAlike σ τ R) (folder : String) (spec : SearchSpec)
include h

theorem find_alike (keys : List SearchKey) : Alike R (find folder keys : Mail σ UidSet) (find folder keys) :=
  (h.search keys).lift

theorem findAny_alike (found : UidSet) (queries : List (List SearchKey)) :
    Alike R (findAny folder found queries : Mail σ UidSet) (findAny folder found queries) := by
  induction queries generalizing found with
  | nil => exact .pure found
  | cons keys rest ih => exact (find_alike h folder keys).bind fun more => ih (found.union more)

theorem scan_alike : Alike R (scan folder spec : Mail σ UidSet) (scan folder spec) :=
  (find_alike h folder [spec.base]).bind fun candidates =>
    (h.fetch candidates [.envelope]).lift.bind fun _ => .pure _

theorem findings_alike (p : Predicate) :
    Alike R (findings folder spec p : Mail σ UidSet) (findings folder spec p) := by
  unfold findings
  cases p.plan with
  | queries queries => exact findAny_alike h folder .empty (queries.map spec.restrict)
  | envelopeScan => exact scan_alike h folder spec

theorem mergeFindings_alike (mode : MergeMode) (found : UidSet) (predicates : List Predicate) :
    Alike R (mergeFindings folder spec mode found predicates : Mail σ UidSet)
      (mergeFindings folder spec mode found predicates) := by
  induction predicates generalizing found with
  | nil => exact .pure found
  | cons p rest ih => exact (findings_alike h folder spec p).bind fun now => ih (mode.merge found now)

theorem query_alike (mode : MergeMode) :
    Alike R (query folder spec mode : Mail σ UidSet) (query folder spec mode) := by
  unfold query
  rcases spec.predicates with _ | ⟨p, rest⟩
  · exact find_alike h folder [spec.base]
  · exact (findings_alike h folder spec p).bind fun found =>
      mergeFindings_alike h folder spec mode found rest

theorem narrow_alike (uids : UidSet) (filter : PostFilter) :
    Alike R (narrow folder uids filter : Mail σ UidSet) (narrow folder uids filter) :=
  .ite (.pure uids) ((h.fetch uids [.bodyStructure]).lift.bind fun _ => .pure _)

theorem narrowAll_alike (uids : UidSet) (filters : List PostFilter) :
    Alike R (narrowAll folder uids filters : Mail σ UidSet) (narrowAll folder uids filters) := by
  induction filters generalizing uids with
  | nil => exact .pure uids
  | cons filter rest ih => exact (narrow_alike h folder uids filter).bind ih

theorem resolve_alike (mode : MergeMode) :
    Alike R (spec.resolve folder mode : Mail σ UidSet) (spec.resolve folder mode) :=
  (h.open_ folder).lift.bind fun _ =>
    (query_alike h folder spec mode).bind fun found =>
      narrowAll_alike h folder found spec.postFilters

end SearchSpec

end

end Mailroom
