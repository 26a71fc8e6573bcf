import FfiBindings.Binding.TypeTable
import Mathlib.Data.List.Nodup

/-!
What a table finds. Entries that are put into a list one after the other leave the last one of each key
(`lookup_foldl_put`), so a layer over a table answers first, and then the table (`find?_insertAll`). The standard
table finds the tags (`find?_standard_eq_some_iff`).
-/

set_option autoImplicit false
set_option relaxedAutoImplicit false

namespace FfiBindings.TypeTable

variable {key name : String} {type : FfiType} {entries layered : List (String × FfiType)} {table : TypeTable}

theorem lookup_cons_pair (name key : String) (type : FfiType) (rest : List (String × FfiType)) :
    ((key, type) :: rest).lookup name = if name = key then some type else rest.lookup name := by
  by_cases h : name = key
  · rw [if_pos h, h, List.lookup_cons_self]
  · rw [if_neg h, List.lookup_cons, beq_eq_false_iff_ne.2 h]

theorem lookup_put (key name : String) (type : FfiType) (entries : List (String × FfiType)) :
    (put key type entries).lookup name = if name = key then some type else entries.lookup name := by
  induction entries with
  | nil => rw [put, lookup_cons_pair]
  | cons entry rest ih =>
    obtain ⟨other, old⟩ := entry
    by_cases hother : other = key
    · subst hother
      simp only [put, if_true, lookup_cons_pair]
      split
      · rfl
      · rfl
    · simp only [put, hother, if_false, lookup_cons_pair, ih]
      by_cases h : name = other
      · rw [if_pos h, if_pos h, if_neg fun heq => hother (h.symm.trans heq)]
      · rw [if_neg h, if_neg h]

/-- The last entry of a name counts, wherever it stands among those of other names. -/
theorem lookup_foldl_put (name : String) (layered entries : List (String × FfiType)) :
    (layered.foldl (fun entries (key, type) => put key type entries) entries).lookup name =
      (layered.reverse.lookup name).or (entries.lookup name) := by
  induction layered generalizing entries with
  | nil => simp
  | cons entry rest ih =>
    obtain ⟨key, type⟩ := entry
    rw [List.foldl_cons, ih, lookup_put, List.reverse_cons, List.lookup_append, Option.or_assoc,
      lookup_cons_pair]
    split
    · rw [Option.some_or]
    · rw [List.lookup_nil, Option.none_or]

theorem lookup_eq_some_iff (h : (entries.map Prod.fst).Nodup) :
    entries.lookup name = some type ↔ (name, type) ∈ entries := by
  induction entries with
  | nil => simp
  | cons entry rest ih =>
    obtain ⟨other, old⟩ := entry
    obtain ⟨hfresh, hrest⟩ := List.nodup_cons.1 h
    rw [lookup_cons_pair, List.mem_cons, Prod.mk.injEq]
    by_cases hname : name = other
    · have hnone : (name, type) ∉ rest := fun hmem => hfresh (List.mem_map.2 ⟨_, hmem, hname⟩)
      simp [hname, hname ▸ hnone, eq_comm]
    · rw [if_neg hname, ih hrest]
      exact ⟨.inr, fun hmem => hmem.resolve_left fun heq => hname heq.1⟩

theorem lookup_reverse (h : (entries.map Prod.fst).Nodup) (name : String) :
    entries.reverse.lookup name = entries.lookup name := by
  have hreverse : (entries.reverse.map Prod.fst).Nodup := by
    rw [List.map_reverse]
    exact List.nodup_reverse.2 h
  ext type
  rw [lookup_eq_some_iff hreverse, lookup_eq_some_iff h, List.mem_reverse]

theorem nodup_foldl_put (layered : List (String × FfiType)) (h : (entries.map Prod.fst).Nodup) :
    ((layered.foldl (fun entries (key, type) => put key type entries) entries).map Prod.fst).Nodup := by
  induction layered generalizing entries with
  | nil => exact h
  | cons entry rest ih => exact ih (nodup_put h)

theorem insertAll_entries (table : TypeTable) (layered : List (String × FfiType)) :
    (table.insertAll layered).entries =
      layered.foldl (fun entries (key, type) => put key type entries) table.entries := by
  induction layered generalizing table with
  | nil => rfl
  | cons entry rest ih => exact ih (table.insert entry.1 entry.2)

/-- A layer answers first, and then the table below it. -/
theorem find?_insertAll (table : TypeTable) (layered : List (String × FfiType)) (designator : String) :
    (table.insertAll layered).find? designator =
      (layered.reverse.lookup (Text.strip designator)).or (table.find? designator) := by
  rw [find?, insertAll_entries, lookup_foldl_put, find?]

theorem standard_entries : standard.entries = FfiType.all.map fun type => (type.tag, type) := by
  decide

theorem find?_standard_eq_some_iff {designator : String} :
    standard.find? designator = some type ↔ type.tag = Text.strip designator := by
  rw [find?, lookup_eq_some_iff standard.nodup, standard_entries, List.mem_map]
  constructor
  · rintro ⟨other, -, heq⟩
    rw [Prod.mk.injEq] at heq
    exact heq.2 ▸ heq.1
  · intro htag
    exact ⟨type, FfiType.mem_all type, by rw [htag]⟩

end FfiBindings.TypeTable
