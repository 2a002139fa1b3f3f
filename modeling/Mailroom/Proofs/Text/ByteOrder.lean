import Mailroom.Proofs.Text.Bytes

/-! Texts in the order of their bytes.

Names are kept in the order of their characters. The bytes of a character are in the order of its number, so
this is the order of the bytes as well. -/
namespace Mailroom.Utf8

theorem ofNat_lt {m n : Nat} (hm : m < 256) (hn : n < 256) : UInt8.ofNat m < UInt8.ofNat n ↔ m < n := by
  rw [UInt8.lt_iff_toNat_lt, toNat_byte hm, toNat_byte hn]

theorem ofNat_inj {m n : Nat} (hm : m < 256) (hn : n < 256) : UInt8.ofNat m = UInt8.ofNat n ↔ m = n := by
  rw [← UInt8.toNat_inj, toNat_byte hm, toNat_byte hn]

/-- The bytes of a character come before those of a later one, whatever follows either. -/
theorem encodeChar_lt {c d : Char} (h : c < d) (s t : Bytes) :
    String.utf8EncodeChar c ++ s < String.utf8EncodeChar d ++ t := by
  have hlt : c.val.toNat < d.val.toNat := UInt32.lt_iff_toNat_lt.mp h
  have hd : d.val.toNat < 0x110000 := by
    obtain hvalid | ⟨-, hvalid⟩ := d.valid
    · exact Nat.lt_trans hvalid (by decide)
    · exact hvalid
  unfold String.utf8EncodeChar
  generalize c.val.toNat = v at hlt
  generalize d.val.toNat = w at hlt hd
  dsimp only
  -- One case for each two lengths. The first bytes tell them apart, and otherwise the bytes are the number's
  -- digits to the base of 64.
  repeat' split
  all_goals
    simp (disch := omega) only [List.cons_append, List.nil_append, List.cons_lt_cons_iff, ofNat_lt, ofNat_inj,
      Nat.mod_eq_of_lt]
    omega

theorem encode_lt {s t : String} (h : s < t) : encode s < encode t := by
  rw [String.lt_iff] at h
  unfold encode
  generalize s.toList = cs at h
  generalize t.toList = ds at h
  induction ds generalizing cs with
  | nil => exact absurd h (List.not_lt_nil cs)
  | cons d ds ih =>
    cases cs with
    | nil =>
      obtain ⟨b, bytes, hbytes⟩ := List.exists_cons_of_ne_nil (String.utf8EncodeChar_ne_nil (c := d))
      rw [List.flatMap_nil, List.flatMap_cons, hbytes]
      exact List.nil_lt_cons ..
    | cons c cs =>
      rw [List.flatMap_cons, List.flatMap_cons]
      obtain hfirst | ⟨rfl, hrest⟩ := List.cons_lt_cons_iff.mp h
      · exact encodeChar_lt hfirst _ _
      · exact List.append_left_lt (ih cs hrest)

end Mailroom.Utf8
