import Mailroom.Proofs.Mailstore.Outcomes
import Mailroom.Proofs.Search.Meaning
import Mailroom.Rules.Report

/-! What rules do to the folders of a store.

By what the store can do, and by whether anything is really done, actions and rules lead from
folders to folders (`Manner.act`, `Manner.apply`), with reports of what was done. If the store fails
a command, an action may be left half done (`Manner.Halfway`), which is the last thing that happens
(`Manner.HalfwayThrough`). -/
namespace Mailroom.Rules
open Mailstore Mailstore.Session

/-! ### What rules come to -/

/-- The folders with one of this name, new if there was none. -/
def provided (folders : SortedMap String Folder) (name : String) : SortedMap String Folder :=
  if folders.contains name then folders else folders.insert name {}

/-- Whether an action has to create a folder. -/
def creates (folders : SortedMap String Folder) : Action → Bool
  | .move folder => !folders.contains folder
  | .delete => false

/-- How rules are applied: with what the store can do, to which inbox, and whether nothing is really
done. -/
structure Manner where
  capabilities : List Capability
  inbox : String
  dryRun : Bool

/-- How a session applies rules. -/
def mannerOf (s : Session) (inbox : String) (dryRun : Bool) : Manner :=
  ⟨s.handle.capabilities, inbox, dryRun⟩

namespace Manner
variable (way : Manner)

/-- The inbox as it is among the folders, empty if there is none. -/
def box (folders : SortedMap String Folder) : Folder := (folders.find? way.inbox).getD {}

/-- The folders once an action has been done. -/
def act (uids : UidSet) (folders : SortedMap String Folder) (action : Action) : SortedMap String Folder :=
  if way.dryRun then folders
  else match action with
    | .move folder =>
      moved way.capabilities (provided folders folder) way.inbox folder (way.box folders) uids
    | .delete => discarded way.capabilities folders way.inbox uids

/-- The folders once several actions have been done. -/
def actAll (uids : UidSet) (folders : SortedMap String Folder) (actions : List Action) :
    SortedMap String Folder :=
  actions.foldl (way.act uids) folders

/-- What is reported of several actions. -/
def reports (uids : UidSet) (folders : SortedMap String Folder) : List Action → List ActionReport
  | [] => []
  | action :: rest =>
    ⟨action, uids.size, creates folders action, way.dryRun⟩ :: reports uids (way.act uids folders action) rest

/-- The messages of the inbox that a rule is about. -/
def found (folders : SortedMap String Folder) (rule : Rule) : UidSet :=
  SearchSpec.described (way.box folders) rule.spec rule.merge

/-- The folders once a rule has been applied. -/
def apply (folders : SortedMap String Folder) (rule : Rule) : SortedMap String Folder :=
  if (way.found folders rule).isEmpty then folders
  else way.actAll (way.found folders rule) folders rule.actions

/-- What is reported of a rule. -/
def report (folders : SortedMap String Folder) (rule : Rule) : RuleReport :=
  if (way.found folders rule).isEmpty then ⟨rule.name, 0, .skipped⟩
  else ⟨rule.name, (way.found folders rule).size,
    .acted (way.reports (way.found folders rule) folders rule.actions)⟩

/-- The folders once several rules have been applied. -/
def applyAll (folders : SortedMap String Folder) (rules : List Rule) : SortedMap String Folder :=
  rules.foldl way.apply folders

/-- What is reported of several rules. -/
def reportAll (folders : SortedMap String Folder) : List Rule → List RuleReport
  | [] => []
  | rule :: rest => way.report folders rule :: reportAll (way.apply folders rule) rest

/-- How often a run pauses for so many actions. -/
def pauses (actions : Nat) : Nat := if way.dryRun then 0 else actions

/-- The folders that an action may leave if the store fails a command. -/
def Halfway (uids : UidSet) (folders : SortedMap String Folder) (action : Action)
    (left : SortedMap String Folder) : Prop :=
  left = folders ∨ way.dryRun = false ∧ match action with
    | .move folder => Partway (provided folders folder) way.inbox folder (way.box folders) uids left
    | .delete => left = folders.change way.inbox (·.markDeleted uids)

/-- The folders that several actions may leave if the store fails a command. -/
inductive HalfwayIn (uids : UidSet) :
    SortedMap String Folder → List Action → SortedMap String Folder → Prop
  | now {folders left : SortedMap String Folder} {action : Action} {rest : List Action}
    (h : way.Halfway uids folders action left) : HalfwayIn uids folders (action :: rest) left
  | later {folders left : SortedMap String Folder} {action : Action} {rest : List Action}
    (h : HalfwayIn uids (way.act uids folders action) rest left) :
    HalfwayIn uids folders (action :: rest) left

/-- The folders that a rule may leave if the store fails a command. -/
def HalfwayRule (folders : SortedMap String Folder) (rule : Rule) (left : SortedMap String Folder) : Prop :=
  left = folders ∨ (way.found folders rule).isEmpty = false ∧
    way.HalfwayIn (way.found folders rule) folders rule.actions left

/-- The folders that rules may leave if the store fails a command. -/
inductive HalfwayThrough : SortedMap String Folder → List Rule → SortedMap String Folder → Prop
  | now {folders left : SortedMap String Folder} {rule : Rule} {rest : List Rule}
    (h : way.HalfwayRule folders rule left) : HalfwayThrough folders (rule :: rest) left
  | later {folders left : SortedMap String Folder} {rule : Rule} {rest : List Rule}
    (h : HalfwayThrough (way.apply folders rule) rest left) : HalfwayThrough folders (rule :: rest) left

end Manner

/-! ### Which folders there are -/

section
variable {folders : SortedMap String Folder} {way : Manner} {uids : UidSet}

theorem contains_provided {folder name : String} :
    (provided folders folder).contains name = true ↔ folders.contains name = true ∨ name = folder := by
  unfold provided
  split
  · next h =>
    refine (or_iff_left_of_imp ?_).symm
    rintro rfl
    exact h
  · rw [SortedMap.contains_insert, Bool.or_eq_true, beq_iff_eq, or_comm]

theorem find?_box (h : folders.contains way.inbox = true) :
    folders.find? way.inbox = some (way.box folders) := by
  obtain ⟨f, hf⟩ := SortedMap.contains_iff.mp h
  rw [Manner.box, hf]
  rfl

theorem box_provided (h : folders.contains way.inbox = true) (folder : String) :
    way.box (provided folders folder) = way.box folders := by
  unfold provided
  split
  · rfl
  · next hmissing =>
    have hother : way.inbox ≠ folder := by
      rintro rfl
      exact hmissing h
    rw [Manner.box, SortedMap.find?_insert, if_neg hother]
    rfl

theorem find?_provided (h : folders.contains way.inbox = true) (folder : String) :
    (provided folders folder).find? way.inbox = some (way.box folders) := by
  obtain ⟨f, hf⟩ := SortedMap.contains_iff.mp h
  unfold provided Manner.box
  rw [hf]
  split
  · exact hf
  · next hmissing =>
    have hother : way.inbox ≠ folder := by
      rintro rfl
      exact hmissing h
    rw [SortedMap.find?_insert, if_neg hother, hf]
    rfl

theorem contains_moved (capabilities : List Capability) (source destination : String) (f : Folder)
    (name : String) :
    (moved capabilities folders source destination f uids).contains name = folders.contains name := by
  unfold moved discarded transferred
  split <;> simp

/-- An action creates the folder that it needs, and loses none. -/
theorem contains_act {action : Action} {name : String} :
    (way.act uids folders action).contains name = true ↔
      folders.contains name = true ∨ way.dryRun = false ∧ action = .move name := by
  unfold Manner.act
  by_cases hdry : way.dryRun = true
  · simp [hdry]
  · rw [if_neg hdry]
    have hreal : way.dryRun = false := by simpa using hdry
    cases action with
    | move folder =>
      rw [contains_moved, contains_provided]
      refine or_congr_right ⟨?_, fun h => (Action.move.inj h.2).symm⟩
      rintro rfl
      exact ⟨hreal, rfl⟩
    | delete => simp [discarded]

theorem contains_actAll (way : Manner) (uids : UidSet) {actions : List Action} {name : String}
    (h : folders.contains name = true) : (way.actAll uids folders actions).contains name = true := by
  induction actions generalizing folders with
  | nil => exact h
  | cons action rest ih => exact ih (contains_act.mpr (.inl h))

theorem contains_apply {rule : Rule} {name : String} (h : folders.contains name = true) :
    (way.apply folders rule).contains name = true := by
  unfold Manner.apply
  split
  · exact h
  · exact contains_actAll way _ h

/-! ### Dry runs -/

section
variable (hdry : way.dryRun = true)
include hdry

theorem act_dry (uids : UidSet) (folders : SortedMap String Folder) (action : Action) :
    way.act uids folders action = folders := if_pos hdry

theorem actAll_dry (uids : UidSet) (folders : SortedMap String Folder) (actions : List Action) :
    way.actAll uids folders actions = folders := by
  induction actions with
  | nil => rfl
  | cons action rest ih =>
    rw [Manner.actAll, List.foldl_cons, act_dry hdry]
    exact ih

theorem apply_dry (folders : SortedMap String Folder) (rule : Rule) : way.apply folders rule = folders := by
  unfold Manner.apply
  split
  · rfl
  · exact actAll_dry hdry _ folders rule.actions

end

/-! ### Names of folders -/

/-- The names that a store lists are those of its folders. -/
theorem listed_names (folders : SortedMap String Folder) :
    SortedSet.ofList ((folders.keys.map fun name =>
      (⟨[.hasNoChildren], some '/', name⟩ : Mailbox.Listing)).map Mailbox.Listing.name) = folders.keySet := by
  apply SortedSet.ext
  intro name
  rw [SortedSet.mem_ofList, List.map_map]
  show name ∈ List.map id folders.keys ↔ _
  rw [List.map_id]
  rfl

theorem contains_keySet (folders : SortedMap String Folder) (name : String) :
    folders.keySet.contains name = folders.contains name := by
  rw [Bool.eq_iff_iff, SortedSet.contains_iff, SortedMap.mem_keySet, SortedMap.contains_iff]

end

end Mailroom.Rules
