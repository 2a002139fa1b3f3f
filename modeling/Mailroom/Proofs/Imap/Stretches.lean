import Mailroom.Proofs.Imap.Fetched

/-! Items about a message, in another order.

The values in a response about a message fall into stretches that are read on their own: a name with its
value, and an excerpt of a body with its section. What stands in front of a stretch or after it makes no
difference to what it tells (`readAll_stretch`), so a response that has its stretches in another order tells
the same in another order (`read_perm`). -/
namespace Mailroom
open Cursor Value

namespace FetchItem
variable {values : List Value} {items : List FetchItem}

/-- Values that are read on their own, wherever they stand in a response, with what they tell: a name and
its value, or an excerpt of a body, which says where it begins or not. -/
inductive IsStretch : List Value → List FetchItem → Prop
  | pair {name v : Value} {text : String} {item : Option FetchItem} (hname : name.text? = some text)
    (hv : ∀ place, v ≠ .bracketed place) (hitem : ofPair (Ascii.upper text) v = .ok item) :
    IsStretch [name, v] item.toList
  | excerpt {name payload : Value} {text : String} {place : List Value} (hname : name.text? = some text)
    (hpayload : isOrigin payload = false) : IsStretch [name, .bracketed place, payload] []
  | excerptFrom {name origin payload : Value} {text : String} {place : List Value}
    (hname : name.text? = some text) (horigin : isOrigin origin = true) :
    IsStretch [name, .bracketed place, origin, payload] []

theorem readAll_stretch (h : IsStretch values items) (rest : List Value) :
    readAll (values ++ rest) = (readAll rest).map (items ++ ·) := by
  have hsame : (readAll rest).map ([] ++ ·) = readAll rest := by
    rcases readAll rest with _ | _ <;> rfl
  cases h with
  | @pair name v text item hname hv hitem =>
    show readAll (name :: v :: rest) = _
    rw [readAll, hname]
    cases v with
    | bracketed place => exact absurd rfl (hv place)
    | _ => simp only [hitem]; rfl
  | @excerpt name payload text place hname hpayload =>
    rw [hsame]
    cases rest with
    | nil =>
      have hnone : readAll [] = .ok [] := by rw [readAll]; rfl
      rw [hnone, List.append_nil, readAll, hname]
      rfl
    | cons next rest =>
      show readAll (name :: .bracketed place :: payload :: next :: rest) = _
      rw [readAll, hname]
      dsimp only
      rw [hpayload]
      rfl
  | @excerptFrom name origin payload text place hname horigin =>
    rw [hsame]
    show readAll (name :: .bracketed place :: origin :: payload :: rest) = _
    rw [readAll, hname]
    dsimp only
    rw [horigin]
    rfl

/-- Stretches one after the other tell what each of them tells. -/
theorem readAll_stretches {stretches : List (List Value × List FetchItem)}
    (h : ∀ s ∈ stretches, IsStretch s.1 s.2) :
    readAll (stretches.flatMap Prod.fst) = .ok (stretches.flatMap Prod.snd) := by
  induction stretches with
  | nil => rw [List.flatMap_nil, readAll]; rfl
  | cons s rest ih =>
    obtain ⟨hs, hrest⟩ := List.forall_mem_cons.mp h
    rw [List.flatMap_cons, readAll_stretch hs, ih hrest]
    rfl

end FetchItem

namespace Response
open FetchItem

/-- The forms of a response that tells about message `n` by these stretches. -/
inductive Stretched (n : Nat) (stretches : List (List Value × List FetchItem)) : Bytes → Prop
  | line {word : String} {inside : Bytes} (hword : Ascii.upper word = "FETCH")
    (hfits : ∀ v ∈ stretches.flatMap Prod.fst, Fits maxDepth v)
    (hinside : Separated Writes (stretches.flatMap Prod.fst) inside) :
    Stretched n stretches (Octet.star :: Octet.space :: (Octet.ofDigits n ++ Octet.space ::
      (Utf8.encode word ++ Octet.space :: Octet.openParen :: (inside ++ [Octet.closeParen]))))

variable {n : Nat} {stretches stretches' : List (List Value × List FetchItem)} {bytes bytes' : Bytes}

/-- The response tells what its stretches tell, one after the other. -/
theorem read_stretched (hn : n < UInt32.size) (hstretches : ∀ s ∈ stretches, IsStretch s.1 s.2)
    (h : Stretched n stretches bytes) (hend : bytes.length < UInt64.size) :
    read (bytes ++ Octet.crlf) = .ok (.untagged (.fetch n (stretches.flatMap Prod.snd))) := by
  cases h with
  | @line word inside hword hfits hinside =>
    have hspaceless : Spaceless word := by
      refine .of_upper ?_
      rw [hword]
      decide +kernel
    have hread := readAll_stretches hstretches
    refine read_of_takes (response_star (untaggedData_numbered hn ?_)) hend
    show Takes _ ([Octet.space] ++ (Utf8.encode word ++ _)) _ _
    refine (expect_takes _ _).bind ((word_takes hspaceless (.inl rfl)).bind ?_)
    dsimp only
    rw [hword]
    refine (spacedList_takes hinside hfits _).last ?_
    rw [hread]
    rfl

/-- A response with its stretches in another order tells the same in another order. -/
theorem read_perm (hn : n < UInt32.size) (hstretches : ∀ s ∈ stretches, IsStretch s.1 s.2)
    (hperm : stretches.Perm stretches') (h : Stretched n stretches bytes) (h' : Stretched n stretches' bytes')
    (hend : bytes.length < UInt64.size) (hend' : bytes'.length < UInt64.size) :
    ∃ items items', read (bytes ++ Octet.crlf) = .ok (.untagged (.fetch n items)) ∧
      read (bytes' ++ Octet.crlf) = .ok (.untagged (.fetch n items')) ∧ items.Perm items' :=
  ⟨_, _, read_stretched hn hstretches h hend,
    read_stretched hn (fun s hs => hstretches s (hperm.mem_iff.mpr hs)) h' hend', hperm.flatMap_right _⟩

end Response

end Mailroom
