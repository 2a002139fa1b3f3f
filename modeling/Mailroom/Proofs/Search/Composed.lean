import Mathlib.Data.List.Infix
import Mailroom.Search.Spec

/-! Searches put together step by step.

A search is an ordered map from kinds to predicates: whatever steps it is put together by (`compose`), it has
one predicate of each kind that was added, in the order in which the kinds were first added (`Firsts`), and
that predicate is the last one of its kind that was added. One step keeps this (`Composed.place`), so it holds
after any steps (`compose_orders`). -/
namespace Mailroom

/-! ### Members in the order in which they come first -/

/-- The members of a list, in the order in which they come first. Nothing comes before itself, so each is there
once. -/
structure Firsts {α : Type} [DecidableEq α] (all once : List α) : Prop where
  mem_iff : ∀ a, a ∈ once ↔ a ∈ all
  order : once.Pairwise fun a b => all.idxOf a < all.idxOf b

namespace Firsts
variable {α : Type} [DecidableEq α] {all once : List α}

theorem nil : Firsts ([] : List α) [] := ⟨fun _ => Iff.rfl, .nil⟩

theorem nodup (h : Firsts all once) : once.Nodup := by
  refine h.order.imp fun {a b} hlt heq => ?_
  subst heq
  exact Nat.lt_irrefl _ hlt

/-- One member more goes to the end, unless it is there. -/
theorem append (h : Firsts all once) (a : α) :
    Firsts (all ++ [a]) (if a ∈ once then once else once ++ [a]) := by
  have hsame : ∀ b ∈ once, (all ++ [a]).idxOf b = all.idxOf b :=
    fun b hb => List.idxOf_append_of_mem ((h.mem_iff b).mp hb)
  have horder : once.Pairwise fun b c => (all ++ [a]).idxOf b < (all ++ [a]).idxOf c := by
    refine h.order.imp_of_mem fun {b c} hb hc hlt => ?_
    rwa [hsame b hb, hsame c hc]
  split
  · next ha =>
    refine ⟨fun b => ?_, horder⟩
    rw [List.mem_append, List.mem_singleton, h.mem_iff]
    exact ⟨.inl, fun hb => hb.elim id fun heq => heq ▸ (h.mem_iff a).mp ha⟩
  · next ha =>
    have hall : a ∉ all := fun hmem => ha ((h.mem_iff a).mpr hmem)
    refine ⟨fun b => by rw [List.mem_append, List.mem_append, h.mem_iff], ?_⟩
    refine List.pairwise_append.mpr ⟨horder, List.pairwise_singleton _ _, fun b hb c hc => ?_⟩
    obtain rfl := List.mem_singleton.mp hc
    rw [hsame b hb, List.idxOf_append_of_notMem hall]
    exact Nat.lt_of_lt_of_le (List.idxOf_lt_length_of_mem ((h.mem_iff b).mp hb)) (Nat.le_add_right _ _)

end Firsts

/-! ### Values for senders -/

namespace Bulk

/-- A value that stands for the bulk senders: one with the sentinel in it. -/
def Stands (value : String) : Prop := sentinel.toList <:+: value.toList

instance (value : String) : Decidable (Stands value) := inferInstanceAs (Decidable (_ <:+: _))

theorem hasSentinel_iff {cs : List Char} : hasSentinel cs = true ↔ sentinel.toList <:+: cs := by
  induction cs using hasSentinel.induct with
  | case1 rest => exact iff_of_true rfl ⟨[], rest, rfl⟩
  | case2 c rest hne ih =>
    rw [hasSentinel.eq_2 _ _ hne, ih, List.infix_cons_iff, or_iff_right]
    rintro ⟨tail, htail⟩
    obtain ⟨rfl, rfl⟩ := List.cons.inj htail
    exact hne tail rfl rfl
  | case3 => simp [hasSentinel, sentinel]

theorem hasSentinel_eq (value : String) : hasSentinel value.toList = decide (Stands value) := by
  rw [Bool.eq_iff_iff, hasSentinel_iff, decide_eq_true_iff, Stands]

end Bulk

/-! ### Predicates by their kinds -/

/-- The predicates are those that were added, the last one of each kind, in the order in which the kinds were
first added. -/
structure Predicate.Composed (added predicates : List Predicate) : Prop where
  kinds : Firsts (added.map kind) (predicates.map kind)
  last : ∀ p ∈ predicates, (added.filter fun q => q.kind = p.kind).getLast? = some p

namespace Predicate.Composed

/-- A predicate that was set last of its kind is among those of the search. -/
theorem mem_of_last {added predicates : List Predicate} {p : Predicate}
    (h : Composed added predicates) (hlast : (added.filter fun q => q.kind = p.kind).getLast? = some p) :
    p ∈ predicates := by
  have hadded : p ∈ added := List.mem_of_mem_filter (List.mem_of_getLast? hlast)
  obtain ⟨q, hq, hkind⟩ := List.mem_map.mp ((h.kinds.mem_iff p.kind).mpr (List.mem_map_of_mem hadded))
  have hqlast := h.last q hq
  rw [hkind, hlast, Option.some.injEq] at hqlast
  exact hqlast ▸ hq

end Predicate.Composed

namespace SearchSpec
open Predicate (Composed)
variable {added predicates : List Predicate} {p q : Predicate}

theorem kinds_place (p : Predicate) (predicates : List Predicate) :
    (place p predicates).map Predicate.kind = if p.kind ∈ predicates.map Predicate.kind
      then predicates.map Predicate.kind else predicates.map Predicate.kind ++ [p.kind] := by
  induction predicates with
  | nil => rfl
  | cons q rest ih =>
    unfold place
    by_cases hq : q.kind = p.kind
    · rw [if_pos hq, if_pos (by simp [hq])]
      simp [hq]
    · rw [if_neg hq, List.map_cons, ih]
      by_cases hin : p.kind ∈ rest.map Predicate.kind
      · rw [if_pos hin, List.map_cons, if_pos (List.mem_cons_of_mem _ hin)]
      · rw [if_neg hin, List.map_cons, if_neg (by simpa [Ne.symm hq] using hin)]
        rfl

/-- Where each kind is there once, the new predicate is the only one of its kind. -/
theorem mem_place (hnodup : (predicates.map Predicate.kind).Nodup) (h : q ∈ place p predicates) :
    q = p ∨ q ∈ predicates ∧ q.kind ≠ p.kind := by
  induction predicates with
  | nil => exact .inl (List.mem_singleton.mp h)
  | cons r rest ih =>
    obtain ⟨hr, hrest⟩ := List.nodup_cons.mp hnodup
    unfold place at h
    split at h
    · next heq =>
      refine (List.mem_cons.mp h).imp_right fun hq => ⟨List.mem_cons_of_mem r hq, fun hkind => hr ?_⟩
      rw [heq, ← hkind]
      exact List.mem_map_of_mem hq
    · next hne =>
      obtain rfl | hq := List.mem_cons.mp h
      · exact .inr ⟨List.mem_cons_self, hne⟩
      · exact (ih hrest hq).imp_right fun ⟨hmem, hkind⟩ => ⟨List.mem_cons_of_mem r hmem, hkind⟩

/-- One predicate more keeps the order of the kinds and is now the last of its own. -/
theorem composed_place (h : Composed added predicates) (p : Predicate) :
    Composed (added ++ [p]) (place p predicates) where
  kinds := by
    rw [List.map_append, List.map_singleton, kinds_place]
    exact h.kinds.append p.kind
  last q hq := by
    rw [List.filter_append]
    obtain rfl | ⟨hmem, hne⟩ := mem_place h.kinds.nodup hq
    · simp
    · simpa [Ne.symm hne] using h.last q hmem

/-! ### Steps -/

/-- One step of putting a search together. -/
inductive Step
  | insert (p : Predicate)
  | senders (values : List String)
  | unread (only : Bool)
  | postFilter (filter : PostFilter)

namespace Step

/-- The search after a step. One that fails leaves the search as it is. -/
def apply (spec : SearchSpec) : Step → SearchSpec
  | insert p => spec.insert p
  | senders values =>
    match spec.withSenders values with
    | .ok spec' => spec'
    | .error _ => spec
  | unread only => spec.withUnread only
  | postFilter filter => spec.withPostFilter filter

/-- The predicates that a step sets. A value for a sender is an address or stands for the bulk senders. -/
def sets : Step → List Predicate
  | insert p => [p]
  | senders values =>
    let addresses := values.filter fun v => ¬ Bulk.Stands v
    (if addresses = [] then [] else [.senders addresses]) ++
      if ∃ v ∈ values, Bulk.Stands v then [.bulkSenders] else []
  | unread _ | postFilter _ => []

/-- The filter that a step asks for. -/
def filter? : Step → Option PostFilter
  | postFilter filter => some filter
  | insert _ | senders _ | unread _ => none

/-- What a step makes of unread messages. -/
def unread? : Step → Option Bool
  | unread only => some only
  | insert _ | senders _ | postFilter _ => none

end Step

/-- The search that is put together by steps, from the one for every message. -/
def compose (steps : List Step) : SearchSpec := steps.foldl Step.apply {}

theorem compose_append (steps : List Step) (step : Step) :
    compose (steps ++ [step]) = step.apply (compose steps) := List.foldl_append

/-! ### One step -/

/-- What steps so far have made of a search. -/
structure Composes (steps : List Step) (spec : SearchSpec) : Prop where
  predicates : Composed (steps.flatMap Step.sets) spec.predicates
  postFilters : Firsts (steps.filterMap Step.filter?) spec.postFilters
  unread : spec.unread = (steps.filterMap Step.unread?).getLast?.getD false

section
variable {steps : List Step} {spec : SearchSpec}

/-- Setting predicates changes nothing else. -/
theorem foldl_insert (ps : List Predicate) (spec : SearchSpec) :
    ps.foldl insert spec = { spec with predicates := ps.foldl (fun all p => place p all) spec.predicates } := by
  induction ps generalizing spec with
  | nil => rfl
  | cons p rest ih => exact ih (spec.insert p)

theorem composed_foldl {added predicates : List Predicate} (h : Composed added predicates)
    (ps : List Predicate) : Composed (added ++ ps) (ps.foldl (fun all p => place p all) predicates) := by
  induction ps generalizing added predicates with
  | nil => simpa using h
  | cons p rest ih => simpa using ih (composed_place h p)

/-- Values for senders are taken as the predicates that they set. -/
theorem withSenders_eq (spec : SearchSpec) {values : List String} (h : values ≠ []) :
    spec.withSenders values = .ok ((Step.senders values).sets.foldl insert spec) := by
  rw [withSenders, if_neg (by simpa using h), List.partition_eq_filter_filter]
  have hbulk : (values.filter fun v => Bulk.hasSentinel v.toList) = [] ↔
      ¬ ∃ v ∈ values, Bulk.Stands v := by
    simp [List.filter_eq_nil_iff, Bulk.hasSentinel_eq]
  have haddresses : values.filter (not ∘ fun v => Bulk.hasSentinel v.toList) =
      values.filter fun v => ¬ Bulk.Stands v :=
    List.filter_congr fun v _ => by simp [Bulk.hasSentinel_eq]
  simp only [haddresses, Step.sets, List.foldl_append, List.isEmpty_iff]
  by_cases hb : ∃ v ∈ values, Bulk.Stands v
  · rw [if_neg (hbulk.not_left.mpr hb), if_pos hb]
    split <;> rfl
  · rw [if_pos (hbulk.mpr hb), if_neg hb]
    split <;> rfl

theorem withSenders_nil (spec : SearchSpec) : spec.withSenders [] = .error (.noAddress "senders") := rfl

/-- Only an empty list of values is refused. -/
theorem withSenders_error_iff {values : List String} {e : SpecProblem} :
    spec.withSenders values = .error e ↔ values = [] ∧ e = .noAddress "senders" := by
  by_cases h : values = []
  · subst h
    rw [withSenders_nil, Except.error.injEq, eq_comm]
    simp
  · rw [withSenders_eq spec h]
    simp [h]

/-- What one step does to each part of a search. -/
theorem Step.apply_eq (step : Step) (spec : SearchSpec) :
    step.apply spec =
      { predicates := step.sets.foldl (fun all p => place p all) spec.predicates
        unread := step.unread?.getD spec.unread
        postFilters := step.filter?.elim spec.postFilters fun filter =>
          if filter ∈ spec.postFilters then spec.postFilters else spec.postFilters ++ [filter] } := by
  cases step with
  | insert p => rfl
  | senders values =>
    by_cases hv : values = []
    · subst hv
      rfl
    · rw [apply, withSenders_eq spec hv]
      exact foldl_insert _ spec
  | unread only => rfl
  | postFilter filter =>
    by_cases hf : filter ∈ spec.postFilters <;> simp [apply, withPostFilter, filter?, unread?, sets, hf]

/-- One step more keeps what the steps before it have made. -/
theorem Composes.step (h : Composes steps spec) (step : Step) :
    Composes (steps ++ [step]) (step.apply spec) := by
  rw [step.apply_eq]
  refine ⟨?_, ?_, ?_⟩
  · simpa using composed_foldl h.predicates step.sets
  · rw [List.filterMap_append]
    cases hf : step.filter? with
    | none => simpa [hf] using h.postFilters
    | some filter => simpa [hf] using h.postFilters.append filter
  · rw [List.filterMap_append]
    cases hu : step.unread? with
    | none => simpa [hu] using h.unread
    | some only => simp [hu]

end

theorem composes_compose (steps : List Step) : Composes steps (compose steps) := by
  induction steps using List.reverseRecOn with
  | nil => exact ⟨⟨.nil, fun p hp => absurd hp List.not_mem_nil⟩, .nil, rfl⟩
  | append_singleton steps step ih => exact compose_append steps step ▸ ih.step step

/-! ### Any steps -/

/-- Values among which are addresses and some for the bulk senders set both. -/
theorem sets_senders {values : List String} (haddress : ∃ v ∈ values, ¬ Bulk.Stands v)
    (hbulk : ∃ v ∈ values, Bulk.Stands v) :
    (Step.senders values).sets = [.senders (values.filter fun v => ¬ Bulk.Stands v), .bulkSenders] := by
  obtain ⟨v, hv, hplain⟩ := haddress
  have hne : (values.filter fun v => ¬ Bulk.Stands v) ≠ [] :=
    List.ne_nil_of_mem (List.mem_filter.mpr ⟨hv, decide_eq_true hplain⟩)
  rw [Step.sets, if_neg hne, if_pos hbulk]
  rfl

/-- A search is an ordered map from kinds to predicates: put together by any steps, it has the kinds that they
set, each once and in the order in which they were first set, with the predicate that was set last. The
filters are those that were asked for, each once and in order. Only a step without values for senders fails,
and values of both sorts set the addresses among them, as they are, and the bulk senders. -/
theorem compose_orders (steps : List Step) :
    let spec := compose steps
    let added := steps.flatMap Step.sets
    (spec.predicates.map Predicate.kind).Nodup ∧
    Firsts (added.map Predicate.kind) (spec.predicates.map Predicate.kind) ∧
    (∀ p ∈ spec.predicates, (added.filter fun q => q.kind = p.kind).getLast? = some p) ∧
    spec.postFilters.Nodup ∧
    Firsts (steps.filterMap Step.filter?) spec.postFilters ∧
    spec.unread = (steps.filterMap Step.unread?).getLast?.getD false ∧
    (∀ values e, spec.withSenders values = .error e ↔ values = [] ∧ e = .noAddress "senders") ∧
    ∀ values, (∃ v ∈ values, ¬ Bulk.Stands v) → (∃ v ∈ values, Bulk.Stands v) →
      ∃ next, spec.withSenders values = .ok next ∧ next = compose (steps ++ [.senders values]) ∧
        .senders (values.filter fun v => ¬ Bulk.Stands v) ∈ next.predicates ∧
        .bulkSenders ∈ next.predicates := by
  have h := composes_compose steps
  refine ⟨h.predicates.kinds.nodup, h.predicates.kinds, h.predicates.last, h.postFilters.nodup,
    h.postFilters, h.unread, fun values e => withSenders_error_iff, fun values haddress hbulk => ?_⟩
  have hnext := (composes_compose (steps ++ [.senders values])).predicates
  simp only [List.flatMap_append, List.flatMap_singleton, sets_senders haddress hbulk] at hnext
  obtain ⟨v, hv, -⟩ := hbulk
  refine ⟨_, ?_, rfl, ?_, ?_⟩
  · rw [withSenders_eq _ (List.ne_nil_of_mem hv), compose_append, Step.apply,
      withSenders_eq _ (List.ne_nil_of_mem hv)]
  · exact hnext.mem_of_last (by simp [List.filter_append, Predicate.kind])
  · exact hnext.mem_of_last (by simp [List.filter_append, Predicate.kind])

/-- Two steps for senders, the second one with an address only, keep the bulk senders and their place. -/
theorem compose_orders_senders :
    let steps := [.senders ["@@", "a@x.org"], .insert .notReplied, .senders ["b@x.org"]]
    compose steps = { predicates := [.senders ["b@x.org"], .bulkSenders, .notReplied] } ∧
    ∃ next, (compose steps).withSenders ["c@x.org", "@@", "a@x.org"] = .ok next ∧
      .senders ["c@x.org", "a@x.org"] ∈ next.predicates ∧ .bulkSenders ∈ next.predicates := by
  intro steps
  refine ⟨by decide, ?_⟩
  obtain ⟨next, hok, -, hsenders, hbulk⟩ :=
    (compose_orders steps).2.2.2.2.2.2.2 ["c@x.org", "@@", "a@x.org"]
      ⟨"c@x.org", by decide, by decide⟩ ⟨"@@", by decide, by decide⟩
  exact ⟨next, hok, hsenders, hbulk⟩

end SearchSpec

end Mailroom
