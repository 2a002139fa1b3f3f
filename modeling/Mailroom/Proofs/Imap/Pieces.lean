import Mailroom.Imap.Response

/-! Reasons that are found once the pieces of a response are understood.

Whatever is wrong with the pieces, it is not that bytes are missing: only a reader of the bytes
themselves can find that. -/
namespace Mailroom

section
variable {ε α β : Type} {e : ε}

theorem bind_ne_error {x : Except ε α} {next : α → Except ε β} (h : x ≠ .error e)
    (hnext : ∀ a, next a ≠ .error e) : (x >>= next) ≠ .error e := by
  rcases x with e' | a
  · exact fun heq => h (congrArg Except.error (Except.error.inj heq))
  · exact hnext a

theorem mapM_ne_error {f : α → Except ε β} (h : ∀ a, f a ≠ .error e) (l : List α) :
    l.mapM f ≠ .error e := by
  induction l with
  | nil => exact nofun
  | cons a l ih =>
    rw [List.mapM_cons]
    exact bind_ne_error (h a) fun b => bind_ne_error ih fun bs => nofun

end

namespace BodyStructure
variable {members : List Member}

/-- What the members describe is not lacking bytes. -/
def Understood (members : List Member) : Prop :=
  ∀ member ∈ members, ∀ reading, member.2 = some reading → reading ≠ .error .truncated

theorem leadingParts_untruncated (h : Understood members) : leadingParts members ≠ .error .truncated := by
  induction members with
  | nil => exact nofun
  | cons member rest ih =>
    obtain ⟨v, _ | part⟩ := member
    · exact nofun
    · refine bind_ne_error (h _ (List.mem_cons_self ..) part rfl) fun part => ?_
      exact bind_ne_error (ih fun m hm => h m (List.mem_cons_of_mem _ hm)) fun parts => nofun

theorem container_untruncated (h : Understood members) : container members ≠ .error .truncated := by
  refine bind_ne_error (leadingParts_untruncated h) fun ⟨parts, others⟩ => ?_
  dsimp only
  split <;> exact nofun

theorem requiredText_untruncated (values : List Value) (i : Nat) (what : String) :
    requiredText values i what ≠ .error .truncated := by
  unfold requiredText
  split <;> exact nofun

theorem leaf_untruncated (h : Understood members) : leaf members ≠ .error .truncated := by
  refine bind_ne_error (requiredText_untruncated _ _ _) fun mediaType =>
    bind_ne_error (requiredText_untruncated _ _ _) fun subtype => ?_
  dsimp only
  split
  next v inner _ hinner =>
    exact bind_ne_error (h _ (List.mem_of_getElem? hinner) inner rfl) fun body => nofun
  next => exact nofun

theorem assemble_untruncated (h : Understood members) : assemble members ≠ .error .truncated := by
  unfold assemble
  split
  · exact container_untruncated h
  · exact leaf_untruncated h

mutual

theorem read?_untruncated (v : Value) (reading : Reading) (h : read? v = some reading) :
    reading ≠ .error .truncated := by
  cases v with
  | list items =>
    rw [read?] at h
    cases h
    exact assemble_untruncated (readMembers_understood items)
  | _ => simp [read?] at h

theorem readMembers_understood (values : List Value) : Understood (readMembers values) := by
  cases values with
  | nil =>
    rw [readMembers]
    exact nofun
  | cons v rest =>
    rw [readMembers]
    intro member hmember reading hreading
    rcases List.mem_cons.mp hmember with rfl | hmember
    · exact read?_untruncated v reading hreading
    · exact readMembers_understood rest member hmember reading hreading

end

theorem ofValues_untruncated (values : List Value) : ofValues values ≠ .error .truncated :=
  assemble_untruncated (readMembers_understood values)

end BodyStructure

namespace FetchItem

theorem ofPair_untruncated (name : String) (v : Value) : ofPair name v ≠ .error .truncated := by
  unfold ofPair
  split
  · split <;> exact nofun
  · exact nofun
  · exact nofun
  · exact nofun
  · exact nofun
  · split
    · exact bind_ne_error (BodyStructure.ofValues_untruncated _) fun body => nofun
    · exact nofun
  · split
    · exact bind_ne_error (BodyStructure.ofValues_untruncated _) fun body => nofun
    · exact nofun
  · exact nofun

theorem readAll_untruncated (values : List Value) : readAll values ≠ .error .truncated := by
  fun_induction readAll values with
  | case6 name text _ items first second rest _ ih => exact ih
  | case7 name text _ items first second rest _ ih => exact ih
  | case8 name text _ upper v rest _ _ _ ih =>
    exact bind_ne_error (ofPair_untruncated upper v) fun item => bind_ne_error ih fun items => nofun
  | _ => exact nofun

end FetchItem

theorem Response.found_untruncated (rest : String) : Response.found rest ≠ .error .truncated := by
  refine mapM_ne_error (fun word => ?_) _
  unfold foundNumber
  split <;> exact nofun

end Mailroom
