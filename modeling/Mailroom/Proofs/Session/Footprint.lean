import Mathlib.Order.Defs.Unbundled
import Mailroom.Proofs.Session.Mirrored

/-! What an operation leaves of the state it finds.

`Within R op` says that, whatever comes of an operation, the state that it leaves is related by `R`
to the state that it found. If `R` is a preorder this passes from the parts of a sequence to the
whole (`Within.bind`). So a search stays within `R` if opening a folder for reading, asking for
messages and having them described do (`resolve_within`), on any kind of session. -/
namespace Mailroom

/-- Whatever comes of the operation, the state that it leaves is so related to the one it found. -/
def Within {ε σ α : Type} (R : σ → σ → Prop) (op : ExceptT ε (StateM σ) α) : Prop :=
  ∀ s, R s (op s).2

namespace Within
variable {ε σ α β : Type} {R : σ → σ → Prop}

theorem lift {explain : SessionError → Failure} {op : SessionM σ α} (h : Within R op) :
    Within R (Mail.lift explain op) := h

theorem map (f : α → β) {op : ExceptT ε (StateM σ) α} (h : Within R op) : Within R (f <$> op) := fun s => by
  rw [map_run]
  exact h s

theorem ends {op : ExceptT ε (StateM σ) α} (h : Within R op) (s : σ) :
    Ends op s (fun _ t => R s t) fun _ t => R s t := by
  have hs := h s
  rcases hop : op s with ⟨e | a, t⟩ <;> rw [hop] at hs
  · exact .error hop hs
  · exact .ok hop hs

theorem ite {c : Prop} [Decidable c] {op op' : ExceptT ε (StateM σ) α} (h : Within R op)
    (h' : Within R op') : Within R (if c then op else op') := by
  split
  · exact h
  · exact h'

section
variable [IsPreorder σ R]

theorem pure (a : α) : Within R (Pure.pure a : ExceptT ε (StateM σ) α) := fun s => Std.Refl.refl s

theorem throw (e : ε) : Within R (MonadExcept.throw e : ExceptT ε (StateM σ) α) :=
  fun s => Std.Refl.refl s

theorem get : Within R (MonadState.get : ExceptT ε (StateM σ) σ) := fun s => Std.Refl.refl s

/-- From equal states within `R` of another an operation comes to such states again. -/
theorem alike {op : ExceptT ε (StateM σ) α} (h : Within R op) (s : σ) :
    Alike (fun t u => t = u ∧ R s t) op op := by
  intro t _ ⟨hsame, hst⟩
  subst hsame
  exact ⟨rfl, rfl, IsTrans.trans s t _ hst (h t)⟩

/-- A sequence, if the second operation stays within `R` after what the first one can give. -/
theorem bind_of {op : ExceptT ε (StateM σ) α} {next : α → ExceptT ε (StateM σ) β} (good : α → Prop)
    (h : Within R op) (hgood : ∀ s a t, op s = (.ok a, t) → good a)
    (hnext : ∀ a, good a → Within R (next a)) : Within R (op >>= next) := by
  intro s
  have hs := h s
  rw [bind_run]
  rcases hop : op s with ⟨e | a, t⟩ <;> rw [hop] at hs
  · exact hs
  · exact IsTrans.trans s t _ hs (hnext a (hgood s a t hop) t)

theorem bind {op : ExceptT ε (StateM σ) α} {next : α → ExceptT ε (StateM σ) β} (h : Within R op)
    (hnext : ∀ a, Within R (next a)) : Within R (op >>= next) :=
  bind_of (fun _ => True) h (fun _ _ _ _ => trivial) fun a _ => hnext a

/-- An operation behind a check that may stop it. -/
theorem guarded {c : Prop} [Decidable c] {stop : ExceptT ε (StateM σ) α} {op : ExceptT ε (StateM σ) β}
    (hstop : Within R stop) (h : Within R op) : Within R (if c then stop >>= fun _ => op else op) :=
  .ite (hstop.bind fun _ => h) h

end

end Within

/-! ### Searches -/

/-- What a search does on a session keeps the state within `R`. -/
structure SearchesWithin (σ : Type) [MailSession σ] (R : σ → σ → Prop) : Prop where
  open_ : ∀ folder, Within R (MailSession.selectFolder folder true : SessionM σ Mailbox.Status)
  search : ∀ keys, Within R (MailSession.search keys : SessionM σ UidSet)
  fetch : ∀ uids attributes, Within R (MailSession.fetch uids attributes : SessionM σ Fetched)

namespace SearchSpec
variable {σ : Type} [MailSession σ] {R : σ → σ → Prop} (h : SearchesWithin σ R) (folder : String)
  (spec : SearchSpec)
include h

/-- So does a search. -/
theorem resolve_within [IsPreorder σ R] (mode : MergeMode) :
    Within R (spec.resolve folder mode : Mail σ UidSet) := by
  intro s
  have hsearches : SearchesAlike σ σ fun t u => t = u ∧ R s t :=
    ⟨fun folder => (h.open_ folder).alike s, fun keys => (h.search keys).alike s,
      fun uids attributes => (h.fetch uids attributes).alike s⟩
  exact (spec.resolve_alike hsearches folder mode s s ⟨rfl, Std.Refl.refl s⟩).2.2

end SearchSpec

end Mailroom
