import Mailroom.Session.Basic

/-! Running operations one after the other.

An operation on a session takes the session to a result and a session. What a sequence of
operations does is read off from what each of them does: `bind_run` says how two are
joined, `bind_ok` and `bind_error` what that means once the outcome of the first is known,
and `bind_eq_ok` which outcomes a sequence that succeeds is made of. `Ends` says what holds after
an operation that may succeed or fail, and is joined by `Ends.bind`. -/
namespace Mailroom

section
variable {ε σ α β : Type}

theorem bind_run (op : ExceptT ε (StateM σ) α) (next : α → ExceptT ε (StateM σ) β) (s : σ) :
    (op >>= next) s = match op s with
      | (.ok a, t) => next a t
      | (.error e, t) => (.error e, t) := by
  rcases h : op s with ⟨_ | _, t⟩ <;>
    simp only [bind, ExceptT.bind, ExceptT.mk, StateT.bind, h] <;> rfl

theorem bind_ok {op : ExceptT ε (StateM σ) α} {next : α → ExceptT ε (StateM σ) β} {s t : σ}
    {a : α} (h : op s = (.ok a, t)) : (op >>= next) s = next a t := by
  rw [bind_run, h]

theorem bind_error {op : ExceptT ε (StateM σ) α} {next : α → ExceptT ε (StateM σ) β} {s t : σ}
    {e : ε} (h : op s = (.error e, t)) : (op >>= next) s = (.error e, t) := by
  rw [bind_run, h]

/-- A sequence that succeeds is made of operations that succeed. -/
theorem bind_eq_ok {op : ExceptT ε (StateM σ) α} {next : α → ExceptT ε (StateM σ) β} {s u : σ}
    {b : β} :
    (op >>= next) s = (.ok b, u) ↔ ∃ a t, op s = (.ok a, t) ∧ next a t = (.ok b, u) := by
  rw [bind_run]
  rcases h : op s with ⟨_ | a, t⟩
  · constructor
    · intro he
      cases he
    · rintro ⟨a, t', ha, -⟩
      cases ha
  · constructor
    · exact fun hn => ⟨a, t, rfl, hn⟩
    · rintro ⟨a', t', ha, hn⟩
      cases ha
      exact hn

@[simp] theorem pure_run (a : α) (s : σ) : (pure a : ExceptT ε (StateM σ) α) s = (.ok a, s) := rfl

@[simp] theorem throw_run (e : ε) (s : σ) : (throw e : ExceptT ε (StateM σ) α) s = (.error e, s) := rfl

@[simp] theorem get_run (s : σ) : (get : ExceptT ε (StateM σ) σ) s = (.ok s, s) := rfl

@[simp] theorem modify_run (f : σ → σ) (s : σ) :
    (modify f : ExceptT ε (StateM σ) PUnit) s = (.ok ⟨⟩, f s) := rfl

@[simp] theorem ite_run (c : Prop) [Decidable c] (x y : ExceptT ε (StateM σ) α) (s : σ) :
    (if c then x else y) s = if c then x s else y s := by
  split <;> rfl

@[simp] theorem map_run (f : α → β) (op : ExceptT ε (StateM σ) α) (s : σ) :
    (f <$> op) s = ((op s).1.map f, (op s).2) := by
  rcases h : op s with ⟨_ | _, t⟩ <;>
    simp only [Functor.map, ExceptT.map, ExceptT.mk, StateT.bind, bind, h] <;> rfl

/-- What holds after an operation: `good` of what it gives and of the state that it leaves if it
succeeds, `bad` of the error and of the state if it fails. -/
def Ends (op : ExceptT ε (StateM σ) α) (s : σ) (good : α → σ → Prop) (bad : ε → σ → Prop) : Prop :=
  match op s with
  | (.ok a, t) => good a t
  | (.error e, t) => bad e t

namespace Ends
variable {op : ExceptT ε (StateM σ) α} {next : α → ExceptT ε (StateM σ) β} {s t : σ}
  {good good' : α → σ → Prop} {bad bad' : ε → σ → Prop}

theorem ok {a : α} (h : op s = (.ok a, t)) (ha : good a t) : Ends op s good bad := by
  rw [Ends, h]
  exact ha

theorem error {e : ε} (h : op s = (.error e, t)) (he : bad e t) : Ends op s good bad := by
  rw [Ends, h]
  exact he

theorem of_eq {op' : ExceptT ε (StateM σ) α} (h : op s = op' s) (hends : Ends op' s good bad) :
    Ends op s good bad := by
  rw [Ends, h]
  exact hends

theorem mono (h : Ends op s good bad) (hgood : ∀ a t, good a t → good' a t)
    (hbad : ∀ e t, bad e t → bad' e t) : Ends op s good' bad' := by
  unfold Ends at h ⊢
  rcases hop : op s with ⟨e | a, t⟩ <;> rw [hop] at h
  · exact hbad e t h
  · exact hgood a t h

theorem and (h : Ends op s good bad) (h' : Ends op s good' bad') :
    Ends op s (fun a t => good a t ∧ good' a t) fun e t => bad e t ∧ bad' e t := by
  unfold Ends at h h' ⊢
  rcases hop : op s with ⟨e | a, t⟩ <;> rw [hop] at h h' <;> exact ⟨h, h'⟩

/-- A sequence fails where its first operation fails, and goes on with the second where it succeeds. -/
theorem bind {last : β → σ → Prop} (h : Ends op s good bad) (hbad : ∀ e t, bad e t → bad' e t)
    (hnext : ∀ a t, good a t → Ends (next a) t last bad') : Ends (op >>= next) s last bad' := by
  unfold Ends at h hnext ⊢
  rw [bind_run]
  rcases hop : op s with ⟨e | a, t⟩ <;> rw [hop] at h
  · exact hbad e t h
  · exact hnext a t h

theorem cases (h : Ends op s good bad) :
    (∃ a t, op s = (.ok a, t) ∧ good a t) ∨ ∃ e t, op s = (.error e, t) ∧ bad e t := by
  unfold Ends at h
  rcases hop : op s with ⟨e | a, t⟩ <;> rw [hop] at h
  · exact .inr ⟨e, t, rfl, h⟩
  · exact .inl ⟨a, t, rfl, h⟩

theorem trivially (op : ExceptT ε (StateM σ) α) (s : σ) :
    Ends op s (fun _ _ => True) fun _ _ => True := by
  unfold Ends
  split <;> trivial

/-- An operation that cannot fail succeeds. -/
theorem exists_ok (h : Ends op s good bad) (hbad : ∀ e t, ¬ bad e t) :
    ∃ a t, op s = (.ok a, t) ∧ good a t := by
  rcases h.cases with hok | ⟨e, t, -, he⟩
  · exact hok
  · exact absurd he (hbad e t)

end Ends

end

namespace Mail
variable {σ α : Type} {explain : SessionError → Failure} {op : SessionM σ α} {s t : σ}

theorem lift_run : lift explain op s = ((op s).1.mapError explain, (op s).2) := rfl

theorem lift_ok {a : α} (h : op s = (.ok a, t)) : lift explain op s = (.ok a, t) := by
  rw [lift_run, h]
  rfl

theorem lift_error {e : SessionError} (h : op s = (.error e, t)) :
    lift explain op s = (.error (explain e), t) := by
  rw [lift_run, h]
  rfl

theorem lift_eq_ok {a : α} : lift explain op s = (.ok a, t) ↔ op s = (.ok a, t) := by
  constructor
  · intro h
    rw [lift_run] at h
    rcases ho : op s with ⟨_ | _, _⟩ <;> rw [ho] at h <;> cases h
    rfl
  · exact lift_ok

theorem lift_ends {good : α → σ → Prop} {bad : SessionError → σ → Prop} (h : Ends op s good bad) :
    Ends (lift explain op) s good fun e t => ∃ cause, e = explain cause ∧ bad cause t := by
  unfold Ends at h ⊢
  rw [lift_run]
  rcases hop : op s with ⟨e | a, t⟩ <;> rw [hop] at h
  · exact ⟨e, rfl, h⟩
  · exact h

end Mail

end Mailroom
