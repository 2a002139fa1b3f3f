import Mailroom.Proofs.Text.Bytes

/-! Bytes that spell no text, read all the same.

The reader of UTF-8 puts a character of its own where bytes spell none. In ASCII it neither adds nor drops
any: what it reads has the same characters there as the bytes (`filter_lossy`), and it has no others only
if the bytes have none (`lower_of_lossy`). Both follow the reader byte by byte (`feed_ascii`), under the
invariant that whatever bytes complete a character, it is one, and outside ASCII (`State.Sure`). -/
namespace Mailroom.Utf8

/-- Whatever bytes complete the character, its number is that of a character, and past ASCII. -/
def State.Sure : State → Prop
  | .between => True
  | .inside due low high bits =>
    let least := (bits * 64 + (low.toNat - 0x80)) * 64 ^ (due - 1)
    let bound := (bits * 64 + (high.toNat - 0x80) + 1) * 64 ^ (due - 1)
    0 < due ∧ due ≤ 3 ∧ 0x80 ≤ low.toNat ∧ 128 ≤ least ∧
      (bound ≤ 0xd800 ∨ 0xe000 ≤ least ∧ bound ≤ 0x110000)

/-- A character outside ASCII, or none. -/
def Upper (o : Option Char) : Prop := ∀ c, o = some c → 128 ≤ c.toNat

/-- Something outside ASCII has been read, or begun. -/
def Reader.Marked (r : Reader) : Prop := r.state ≠ .between ∨ ∃ o ∈ r.read, Upper o

/-- The characters in ASCII among those read. -/
def asciiOf (read : List (Option Char)) : List Char := (read.filterMap id).filter (·.toNat < 128)

section
variable {read : List (Option Char)} {b : UInt8} {bytes : Bytes} {r : Reader}

theorem upper_none : Upper none := fun _ h => nomatch h

theorem asciiOf_upper {o : Option Char} (h : Upper o) (read : List (Option Char)) :
    asciiOf (o :: read) = asciiOf read := by
  cases o with
  | none => simp [asciiOf]
  | some c => simp [asciiOf, h c rfl]

theorem asciiOf_lower {c : Char} (h : c.toNat < 128) (read : List (Option Char)) :
    asciiOf (some c :: read) = c :: asciiOf read := by
  simp [asciiOf, h]

theorem char_lower (h : b < 0x80) : (Octet.char b).toNat < 128 := by
  rw [Octet.toNat_char]
  exact UInt8.lt_iff_toNat_lt.mp h

/-- What a first byte comes to. -/
theorem first_cases (read : List (Option Char)) (b : UInt8) :
    b < 0x80 ∧ Reader.first read b = ⟨.between, some (Octet.char b) :: read⟩ ∨
      0x80 ≤ b ∧ (Reader.first read b = ⟨.between, none :: read⟩ ∨
        ∃ due low high bits, (State.inside due low high bits).Sure ∧
          Reader.first read b = ⟨.inside due low high bits, read⟩) := by
  have hb := b.toNat_lt
  unfold Reader.first
  split
  · next hlow => exact .inl ⟨hlow, rfl⟩
  · next hupper =>
    refine .inr ⟨UInt8.not_lt.mp hupper, ?_⟩
    repeat' split
    all_goals first
      | exact .inl rfl
      | (refine .inr ⟨_, _, _, _, ?_, rfl⟩
         simp only [UInt8.lt_iff_toNat_lt, ← UInt8.toNat_inj, UInt8.reduceToNat, not_lt] at *
         simp only [State.Sure, UInt8.reduceToNat, Nat.reduceSub, Nat.reducePow]
         omega)

/-- What one byte more comes to: it is read as a first byte, or goes on with the character. -/
theorem feed_cases (hsure : r.state.Sure) (b : UInt8) :
    (r.state = .between ∧ r.feed b = Reader.first r.read b) ∨ r.feed b = Reader.first (none :: r.read) b ∨
      0x80 ≤ b ∧ ((∃ c : Char, 128 ≤ c.toNat ∧ r.feed b = ⟨.between, some c :: r.read⟩) ∨
        ∃ due low high bits, (State.inside due low high bits).Sure ∧
          r.feed b = ⟨.inside due low high bits, r.read⟩) := by
  obtain ⟨_ | ⟨due, low, high, bits⟩, read⟩ := r
  · exact .inl ⟨rfl, rfl⟩
  · refine .inr ?_
    unfold Reader.feed
    dsimp only
    by_cases hrange : low ≤ b ∧ b ≤ high
    · rw [if_pos hrange]
      simp only [UInt8.le_iff_toNat_le] at hrange
      simp only [State.Sure] at hsure
      refine .inr ⟨?_, ?_⟩
      · rw [UInt8.le_iff_toNat_le]
        exact hsure.2.2.1.trans hrange.1
      obtain rfl | hdue : due = 1 ∨ ¬ due ≤ 1 := by omega
      · refine .inl ⟨_, ?_, rfl⟩
        have hvalid : (bits * 64 + (b.toNat - 0x80)).isValidChar := by
          simp only [Nat.isValidChar]
          omega
        have hnumber : (Char.ofNat (bits * 64 + (b.toNat - 0x80))).toNat = bits * 64 + (b.toNat - 0x80) := by
          rw [Char.ofNat, dif_pos hvalid]
          rfl
        omega
      · rw [if_neg hdue]
        refine .inr ⟨_, _, _, _, ?_, rfl⟩
        simp only [State.Sure, UInt8.reduceToNat]
        obtain rfl | rfl : due = 2 ∨ due = 3 := by omega
        · omega
        · omega
    · rw [if_neg hrange]
      exact .inl rfl

/-- What has been read goes on by what a byte spells in ASCII, which is nothing unless the byte is in
ASCII, and what is not in ASCII is never lost. -/
structure Follows (r : Reader) (b : UInt8) (next : Reader) : Prop where
  sure : next.state.Sure
  ascii : asciiOf next.read = (if b < 0x80 then [Octet.char b] else []) ++ asciiOf r.read
  marked : r.Marked ∨ 0x80 ≤ b → next.Marked

theorem first_follows (state : State) (read : List (Option Char))
    (hmarked : state ≠ .between → ∃ o ∈ read, Upper o) (b : UInt8) :
    Follows ⟨state, read⟩ b (Reader.first read b) := by
  obtain ⟨hb, hrun⟩ | ⟨hb, hrun | ⟨due, low, high, bits, hsure, hrun⟩⟩ := first_cases read b
  all_goals rw [hrun]
  · refine ⟨trivial, by rw [if_pos hb, asciiOf_lower (char_lower hb)]; rfl, fun h => ?_⟩
    obtain (hstate | ⟨o, ho, hupper⟩) | hb' := h
    · obtain ⟨o, ho, hupper⟩ := hmarked hstate
      exact .inr ⟨o, List.mem_cons_of_mem _ ho, hupper⟩
    · exact .inr ⟨o, List.mem_cons_of_mem _ ho, hupper⟩
    · exact absurd hb (UInt8.not_lt.mpr hb')
  · refine ⟨trivial, ?_, fun _ => .inr ⟨none, List.mem_cons_self .., upper_none⟩⟩
    rw [if_neg (UInt8.not_lt.mpr hb), asciiOf_upper upper_none]
    rfl
  · refine ⟨hsure, ?_, fun _ => .inl nofun⟩
    rw [if_neg (UInt8.not_lt.mpr hb)]
    rfl

theorem feed_follows (hsure : r.state.Sure) (b : UInt8) : Follows r b (r.feed b) := by
  obtain ⟨hstate, hrun⟩ | hrun | ⟨hb, ⟨c, hc, hrun⟩ | ⟨due, low, high, bits, hnext, hrun⟩⟩ :=
    feed_cases hsure b
  all_goals rw [hrun]
  · exact first_follows r.state r.read (absurd hstate) b
  · -- The character that could not be finished is missing.
    have hfirst := first_follows r.state (none :: r.read)
      (fun _ => ⟨none, List.mem_cons_self .., upper_none⟩) b
    refine ⟨hfirst.sure, hfirst.ascii.trans (by rw [asciiOf_upper upper_none]), fun _ => hfirst.marked ?_⟩
    exact .inl (.inr ⟨none, List.mem_cons_self .., upper_none⟩)
  · have hupper : Upper (some c) := fun _ heq => Option.some.inj heq ▸ hc
    refine ⟨trivial, ?_, fun _ => .inr ⟨some c, List.mem_cons_self .., hupper⟩⟩
    rw [if_neg (UInt8.not_lt.mpr hb), asciiOf_upper hupper]
    rfl
  · refine ⟨hnext, ?_, fun _ => .inl nofun⟩
    rw [if_neg (UInt8.not_lt.mpr hb)]
    rfl

theorem foldl_follows (hsure : r.state.Sure) (bytes : Bytes) :
    asciiOf (bytes.foldl Reader.feed r).read =
        ((bytes.filter (· < 0x80)).map Octet.char).reverse ++ asciiOf r.read ∧
      (r.Marked ∨ (∃ b ∈ bytes, 0x80 ≤ b) → (bytes.foldl Reader.feed r).Marked) := by
  induction bytes generalizing r with
  | nil => simp
  | cons b bytes ih =>
    have hstep := feed_follows hsure b
    obtain ⟨hascii, hmarked⟩ := ih hstep.sure
    rw [List.foldl_cons]
    constructor
    · rw [hascii, hstep.ascii]
      by_cases hb : b < 0x80 <;> simp [hb]
    · intro h
      refine hmarked ?_
      obtain h | ⟨b', hmem, hupper⟩ := h
      · exact .inl (hstep.marked (.inl h))
      cases hmem with
      | head => exact .inl (hstep.marked (.inr hupper))
      | tail _ hmem => exact .inr ⟨b', hmem, hupper⟩

/-- What the bytes spell, read to the end. -/
theorem decode_follows (bytes : Bytes) :
    asciiOf (decode bytes) = (bytes.filter (· < 0x80)).map Octet.char ∧
      ((∃ b ∈ bytes, 0x80 ≤ b) → ∃ o ∈ decode bytes, Upper o) := by
  obtain ⟨hascii, hmarked⟩ := foldl_follows (r := ⟨.between, []⟩) trivial bytes
  unfold decode Reader.finish
  have hreverse : ∀ read, asciiOf read.reverse = (asciiOf read).reverse := fun read => by
    simp [asciiOf, List.filterMap_reverse]
  split
  · next hstate =>
    refine ⟨by rw [hreverse, hascii]; simp [asciiOf], fun h => ?_⟩
    obtain hstate' | ⟨o, ho, hupper⟩ := hmarked (.inr h)
    · exact absurd hstate hstate'
    · exact ⟨o, List.mem_reverse.mpr ho, hupper⟩
  · refine ⟨by rw [hreverse, asciiOf_upper upper_none, hascii]; simp [asciiOf], fun _ => ?_⟩
    exact ⟨none, by simp, upper_none⟩

theorem toList_lossy (bytes : Bytes) : (lossy bytes).toList = (decode bytes).map fun c => c.getD '\uFFFD' := by
  rw [lossy, String.toList_ofList]

/-- The characters in ASCII are those that the bytes in ASCII spell. -/
theorem filter_lossy (bytes : Bytes) :
    (lossy bytes).toList.filter (·.toNat < 128) = (bytes.filter (· < 0x80)).map Octet.char := by
  rw [toList_lossy, ← (decode_follows bytes).1]
  generalize decode bytes = read
  induction read with
  | nil => rfl
  | cons o read ih =>
    cases o with
    | none =>
      have hother : ¬ '\uFFFD'.toNat < 128 := by decide
      rw [List.map_cons, asciiOf_upper upper_none, ← ih, Option.getD_none, List.filter_cons_of_neg (by simp)]
    | some c =>
      by_cases hc : c.toNat < 128
      · rw [asciiOf_lower hc, ← ih]
        simp [hc]
      · rw [asciiOf_upper (by simpa [Upper] using hc), ← ih]
        simp [hc]

/-- A text in ASCII comes from bytes in ASCII only. -/
theorem lower_of_lossy (h : ∀ c ∈ (lossy bytes).toList, c.toNat < 128) : ∀ b ∈ bytes, b < 0x80 := by
  intro b hb
  refine Decidable.byContradiction fun hupper => ?_
  obtain ⟨o, ho, hother⟩ := (decode_follows bytes).2 ⟨b, hb, UInt8.not_lt.mp hupper⟩
  have hread : o.getD '\uFFFD' ∈ (lossy bytes).toList := by
    rw [toList_lossy]
    exact List.mem_map_of_mem ho
  have hlower := h _ hread
  cases o with
  | none => exact absurd hlower (by decide)
  | some c => exact absurd hlower (Nat.not_lt.mpr (hother c rfl))

/-- A text in ASCII has the characters of the bytes. -/
theorem lossy_ascii (h : ∀ c ∈ (lossy bytes).toList, c.toNat < 128) :
    (lossy bytes).toList = bytes.map Octet.char := by
  have hbytes := lower_of_lossy h
  have hfilter := filter_lossy bytes
  rwa [List.filter_eq_self.mpr (by simpa using h), List.filter_eq_self.mpr (by simpa using hbytes)] at hfilter

theorem lossy_ne_nil (h : bytes ≠ []) : (lossy bytes).toList ≠ [] := by
  intro hempty
  have hascii : ∀ c ∈ (lossy bytes).toList, c.toNat < 128 := by simp [hempty]
  have hchars := lossy_ascii hascii
  rw [hempty] at hchars
  exact h (List.map_eq_nil_iff.mp hchars.symm)

/-- A byte in ASCII that spells what has been read is one of those that were read. -/
theorem mem_of_mem_encode (hmem : b ∈ encode (lossy bytes)) (hb : b < 0x80) : b ∈ bytes := by
  have hchar : Octet.char b ∈ (lossy bytes).toList.filter (·.toNat < 128) :=
    List.mem_filter.mpr ⟨Octet.char_mem hmem hb, by simpa using char_lower hb⟩
  rw [filter_lossy] at hchar
  obtain ⟨b', hb', heq⟩ := List.mem_map.mp hchar
  have hsame : b' = b := by
    rw [← UInt8.toNat_inj, ← Octet.toNat_char, heq, Octet.toNat_char]
  exact hsame ▸ (List.mem_filter.mp hb').1

end

end Mailroom.Utf8
