import Mathlib.Data.List.Nodup
import Mailroom.Config.Basic
import Mailroom.Proofs.Sorted.Views
import Mailroom.Proofs.Text.ByteOrder
import Mailroom.Proofs.Text.Lowered

/-! Accounts are reached by their names.

What a document writes is a table of accounts, and a configuration holds the same accounts under their names in
small letters: their entries are a rearrangement of the written ones (`ofWritten_perm`), so nothing is lost and
nothing else is there. Names are made small once more when an account is selected and when it is looked up,
which changes nothing (`Casing.lower_lower`). -/
namespace Mailroom

namespace Config
variable {accounts accounts' written : SortedMap String AccountConfig} {document source : String}

/-- An account under its name in small letters. -/
def lowered (entry : String × AccountConfig) : String × AccountConfig := (Casing.lower entry.1, entry.2)

/-- An account is added if its name is new. -/
theorem add_new {entry : String × AccountConfig} (h : accounts.find? (Casing.lower entry.1) = none) :
    add accounts entry = .ok (accounts.insert (Casing.lower entry.1) entry.2) := by
  have hfresh : accounts.contains (Casing.lower entry.1) = false := by rw [SortedMap.contains, h]; rfl
  exact if_neg (Bool.eq_false_iff.mp hfresh)

theorem add_again {entry : String × AccountConfig} (h : accounts.find? (Casing.lower entry.1) ≠ none) :
    add accounts entry = .error (.config (.definedTwice entry.1)) := by
  exact if_pos (Option.isSome_iff_ne_none.mpr h)

/-- Accounts are added if each of them has a name of its own. -/
theorem exists_foldlM_add {entries : List (String × AccountConfig)} :
    (∃ accounts', entries.foldlM add accounts = .ok accounts') ↔
      (entries.map fun e => Casing.lower e.1).Nodup ∧
        ∀ e ∈ entries, accounts.find? (Casing.lower e.1) = none := by
  induction entries generalizing accounts with
  | nil => exact iff_of_true ⟨accounts, rfl⟩ ⟨.nil, nofun⟩
  | cons entry entries ih =>
    rw [List.foldlM_cons, List.map_cons, List.nodup_cons, List.forall_mem_cons]
    by_cases hnew : accounts.find? (Casing.lower entry.1) = none
    · -- The names that are left must differ from this one as well.
      have hrest :
          (∀ e ∈ entries,
              (accounts.insert (Casing.lower entry.1) entry.2).find? (Casing.lower e.1) = none) ↔
            Casing.lower entry.1 ∉ entries.map (fun e => Casing.lower e.1) ∧
              ∀ e ∈ entries, accounts.find? (Casing.lower e.1) = none := by
        simp only [SortedMap.find?_insert, List.mem_map, not_exists, not_and, ← forall_and]
        refine forall_congr' fun e => forall_congr' fun _ => ?_
        split
        · next hsame => simp [hsame]
        · next hother => simp [hother]
      rw [add_new hnew]
      refine ih.trans ?_
      rw [hrest]
      constructor
      · rintro ⟨hnodup, hother, hfree⟩
        exact ⟨⟨hother, hnodup⟩, hnew, hfree⟩
      · rintro ⟨⟨hother, hnodup⟩, -, hfree⟩
        exact ⟨hnodup, hother, hfree⟩
    · rw [add_again hnew]
      refine iff_of_false ?_ fun h => hnew h.2.1
      rintro ⟨_, ⟨⟩⟩

/-- Nothing is added but the accounts under their names in small letters. -/
theorem foldlM_add_perm {entries : List (String × AccountConfig)}
    (h : entries.foldlM add accounts = .ok accounts') :
    accounts'.entries.Perm (entries.map lowered ++ accounts.entries) := by
  induction entries generalizing accounts with
  | nil =>
    cases h
    exact .refl _
  | cons entry entries ih =>
    rw [List.foldlM_cons] at h
    by_cases hnew : accounts.find? (Casing.lower entry.1) = none
    · rw [add_new hnew] at h
      have hinsert : (accounts.insert (Casing.lower entry.1) entry.2).entries.Perm
          (lowered entry :: accounts.entries) := SortedMap.entries_insert_perm entry.2 hnew
      exact (ih h).trans ((hinsert.append_left _).trans List.perm_middle)
    · rw [add_again hnew] at h
      cases h

theorem ofWritten_ok {config : Config} (h : ofWritten written = .ok config) :
    written.entries.foldlM add .empty = .ok config.accounts := by
  unfold ofWritten at h
  cases hfold : written.entries.foldlM add .empty with
  | error failure =>
    rw [hfold] at h
    cases h
  | ok accounts =>
    rw [hfold] at h
    cases h
    rfl

/-- Written accounts make a configuration if no two names are the same in small letters. -/
theorem exists_ofWritten :
    (∃ config, ofWritten written = .ok config) ↔
      ∀ n ∈ written.keys, ∀ n' ∈ written.keys, Casing.lower n = Casing.lower n' → n = n' := by
  have hnodup : written.keys.Nodup := written.keySet.ascending.imp fun hlt => by
    rintro rfl
    simp at hlt
  have hfold : (∃ config, ofWritten written = .ok config) ↔
      ∃ accounts, written.entries.foldlM add .empty = .ok accounts := by
    constructor
    · rintro ⟨config, h⟩
      exact ⟨config.accounts, ofWritten_ok h⟩
    · rintro ⟨accounts, h⟩
      exact ⟨⟨accounts⟩, by rw [ofWritten, h]; rfl⟩
  have hmap : (written.entries.map fun e => Casing.lower e.1) = written.keys.map Casing.lower := by
    rw [SortedMap.keys, List.map_map]
    rfl
  rw [hfold, exists_foldlM_add, hmap]
  refine (and_iff_left fun _ _ => SortedMap.find?_empty _).trans ⟨?_, ?_⟩
  · exact fun h n hn n' hn' => List.inj_on_of_nodup_map h hn hn'
  · exact fun h => hnodup.map_on h

/-- The accounts are the written ones, under their names in small letters. -/
theorem ofWritten_perm {config : Config} (h : ofWritten written = .ok config) :
    config.accounts.entries.Perm (written.entries.map lowered) := by
  have hperm := foldlM_add_perm (ofWritten_ok h)
  have hempty : (SortedMap.empty : SortedMap String AccountConfig).entries = [] := rfl
  rwa [hempty, List.append_nil] at hperm

theorem account_ok_iff {config : Config} {m : String} {settings : AccountConfig} :
    config.account m = .ok settings ↔ config.accounts.find? (Casing.lower m) = some settings := by
  unfold account
  cases config.accounts.find? (Casing.lower m) <;> simp [pure, Except.pure, throw, throwThe, MonadExceptOf.throw]

/-- What a configuration owes the accounts as they are written. -/
structure Reaches (config : Config) (written : SortedMap String AccountConfig) : Prop where
  /-- An account is found under its name in any letter case, and under no other. -/
  named (m : String) (settings : AccountConfig) :
    config.account m = .ok settings ↔
      ∃ n, written.find? n = some settings ∧ Casing.lower m = Casing.lower n
  /-- A name selects one name, under which the account is found. -/
  selected (n : String) (settings : AccountConfig) (m : String) :
    written.find? n = some settings → Casing.lower m = Casing.lower n → Ascii.same m allAccounts = false →
      ∃ name, config.select m = [name] ∧ config.account name = .ok settings
  /-- All accounts are selected once each, in small letters and in the order of the bytes. -/
  listed (selector : String) :
    Ascii.same selector allAccounts = true →
      (config.select selector).Perm (written.keys.map Casing.lower) ∧
        (config.select selector).Pairwise (fun a b => Utf8.encode a < Utf8.encode b) ∧
        ∀ n settings, written.find? n = some settings → config.account (Casing.lower n) = .ok settings

theorem reaches_ofWritten {config : Config} (h : ofWritten written = .ok config) : config.Reaches written := by
  have hperm := ofWritten_perm h
  have hnamed : ∀ m settings, config.account m = .ok settings ↔
      ∃ n, written.find? n = some settings ∧ Casing.lower m = Casing.lower n := by
    intro m settings
    rw [account_ok_iff, SortedMap.find?_eq_some_iff, hperm.mem_iff, List.mem_map]
    constructor
    · rintro ⟨⟨n, settings'⟩, hwritten, hlowered⟩
      obtain ⟨hname, rfl⟩ := Prod.mk.inj hlowered
      exact ⟨n, SortedMap.find?_eq_some_iff.mpr hwritten, hname.symm⟩
    · rintro ⟨n, hwritten, hm⟩
      exact ⟨(n, settings), SortedMap.find?_eq_some_iff.mp hwritten, by rw [hm]; rfl⟩
  refine ⟨hnamed, fun n settings m hwritten hm hword => ?_, fun selector hword => ⟨?_, ?_, ?_⟩⟩
  · refine ⟨Casing.lower m, ?_, (hnamed _ _).mpr ⟨n, hwritten, ?_⟩⟩
    · rw [select, hword]
      rfl
    · rw [Casing.lower_lower, hm]
  · rw [select, if_pos hword]
    have hkeys := hperm.map Prod.fst
    rw [List.map_map] at hkeys
    rwa [SortedMap.keys, SortedMap.keys, List.map_map]
  · rw [select, if_pos hword]
    exact config.accounts.keySet.ascending.imp fun hlt => Utf8.encode_lt (compareOfLessAndEq_eq_lt.mp hlt)
  · exact fun n settings hwritten => (hnamed _ _).mpr ⟨n, hwritten, Casing.lower_lower n⟩

/-- Accounts whose names differ by more than letter case make a configuration, and there each of them is
reached. -/
theorem accounts_reached (h : documentAccounts? document = some written) :
    ((∃ config, parse document source = .ok config) ↔
        ∀ n ∈ written.keys, ∀ n' ∈ written.keys, Casing.lower n = Casing.lower n' → n = n') ∧
      ∀ config, parse document source = .ok config → config.Reaches written := by
  have hparse : parse document source = ofWritten written := by
    unfold parse
    rw [h]
  rw [hparse]
  exact ⟨exists_ofWritten, fun _ => reaches_ofWritten⟩

/-- A sigma at the end of a word has a small letter of its own, in a name that is written as in one that is
asked for. -/
theorem accounts_reached_greek :
    let document := "[accounts.Work]\nhost = \"h\"\nusername = \"u\"\n" ++
      "[accounts.\"ΟΔΟΣ\"]\nhost = \"i\"\nusername = \"v\"\n"
    ∃ written config, documentAccounts? document = some written ∧ parse document "names.toml" = .ok config ∧
      config.select "All" = ["work", "οδος"] ∧ config.Reaches written := by
  intro document
  have hwritten : (documentAccounts? document).isSome = true := by decide +kernel
  have hparse : (parse document "names.toml").map (select · "All") = .ok ["work", "οδος"] := by decide +kernel
  obtain ⟨written, hwritten⟩ := Option.isSome_iff_exists.mp hwritten
  cases hconfig : parse document "names.toml" with
  | error failure =>
    rw [hconfig] at hparse
    cases hparse
  | ok config =>
    rw [hconfig] at hparse
    exact ⟨written, config, hwritten, rfl, Except.ok.inj hparse, (accounts_reached hwritten).2 config hconfig⟩

end Config

end Mailroom
