import FfiBindings.Proofs.Rust.Items

/-!
The exported functions of items as they are written. The functions that are found are those at any depth of modules
that are exported and not generic (`Items.exports_eq`), and the tokens of their types are tokens of the items
(`Items.tokens_subset`).
-/

set_option autoImplicit false
set_option relaxedAutoImplicit false

namespace FfiBindings.Rust.Grammar

def Parameters.toList : Parameters → List Parameter
  | .none => []
  | .last parameter => [parameter]
  | .more parameter _ rest => parameter :: rest.toList

theorem Parameters.meaning_eq (parameters : Parameters) :
    parameters.meaning = parameters.toList.map Parameter.meaning := by
  induction parameters with
  | none => rfl
  | last parameter => rfl
  | more parameter comma rest ih => rw [meaning, toList, ih, List.map_cons]

theorem Parameters.type_subset {parameters : Parameters} {parameter : Parameter}
    (h : parameter ∈ parameters.toList) : parameter.type ⊆ parameters.tokens := by
  induction parameters with
  | none => exact absurd h List.not_mem_nil
  | last only =>
    obtain rfl := List.mem_singleton.1 h
    exact fun token hmem => List.mem_append_right _ (List.mem_cons_of_mem _ hmem)
  | more first comma rest ih =>
    intro token hmem
    rw [tokens]
    rcases List.mem_cons.1 h with rfl | hrest
    · exact List.mem_append_left _ (List.mem_append_right _ (List.mem_cons_of_mem _ hmem))
    · exact List.mem_append_right _ (List.mem_cons_of_mem _ (ih hrest hmem))

namespace Function

variable {function : Function}

/-- Whether the function is found: it is exported, and it is not generic. -/
def isFound (function : Function) : Bool :=
  function.lead.modifiers.exports && function.generics.isNone

theorem function?_finding (function : Function) :
    function.finding?.bind Finding.function? = if function.isFound then some function.meaning else none := by
  unfold finding? isFound
  cases function.lead.modifiers.exports with
  | false => rfl
  | true =>
    cases function.generics with
    | none => rfl
    | some generics => rfl

theorem tokensFromParameters_subset (function : Function) : function.tokensFromParameters ⊆ function.tokens :=
  fun _ hmem => List.mem_append_right _ (List.mem_cons_of_mem _ (List.mem_cons_of_mem _
    (List.mem_append_right _ hmem)))

theorem type_subset {parameter : Parameter} (h : parameter ∈ function.parameters.toList) :
    parameter.type ⊆ function.tokens := by
  intro token hmem
  refine function.tokensFromParameters_subset (List.mem_cons_of_mem _ (List.mem_append_left _ ?_))
  exact Parameters.type_subset h hmem

theorem returned_subset {returned : Returned} (h : function.returned = some returned) :
    returned.type ⊆ function.tokens := by
  intro token hmem
  refine function.tokensFromParameters_subset (List.mem_cons_of_mem _ (List.mem_append_right _
    (List.mem_cons_of_mem _ (List.mem_append_left _ ?_))))
  rw [h]
  exact List.mem_cons_of_mem _ hmem

end Function

namespace Items

/-- The functions at any depth of modules. -/
def functions : Items → List Function
  | .none => []
  | .function item rest => item :: rest.functions
  | .block _ rest | .imports _ rest | .macroCall _ rest | .other _ rest => rest.functions
  | .module _ inside _ rest => inside.functions ++ rest.functions

/-- The functions that are found, as they are written. -/
def found (items : Items) : List Function :=
  items.functions.filter Function.isFound

/-- The exports are what the functions that are found mean. -/
theorem exports_eq (items : Items) : items.exports = items.found.map Function.meaning := by
  rw [exports, found]
  induction items with
  | none => rfl
  | function item rest ih =>
    have hfinding := item.function?_finding
    rw [findings, functions, List.filterMap_append, ih, List.filter_cons]
    split
    · rename_i hfound
      rw [if_pos hfound] at hfinding
      obtain ⟨finding, hsome, hfunction⟩ := Option.bind_eq_some_iff.1 hfinding
      simp [hsome, hfunction]
    · rename_i hnone
      rw [if_neg hnone] at hfinding
      cases hsome : item.finding? with
      | none => rfl
      | some finding =>
        rw [hsome, Option.bind_some] at hfinding
        simp [hfinding]
  | block item rest ih => exact ih
  | imports item rest ih => exact ih
  | macroCall item rest ih => exact ih
  | other item rest ih => exact ih
  | module header inside closing rest ihinside ihrest =>
    rw [findings, functions, List.filterMap_append, List.filter_append, List.map_append, ihinside, ihrest]

theorem tokens_subset {items : Items} {function : Function} (h : function ∈ items.functions) :
    function.tokens ⊆ items.tokens := by
  induction items with
  | none => exact absurd h List.not_mem_nil
  | function item rest ih =>
    rcases List.mem_cons.1 h with rfl | hrest
    · exact List.subset_append_left _ _
    · exact List.Subset.trans (ih hrest) (List.subset_append_right _ _)
  | block item rest ih => exact List.Subset.trans (ih h) (List.subset_append_right _ _)
  | imports item rest ih => exact List.Subset.trans (ih h) (List.subset_append_right _ _)
  | macroCall item rest ih => exact List.Subset.trans (ih h) (List.subset_append_right _ _)
  | other item rest ih => exact List.Subset.trans (ih h) (List.subset_append_right _ _)
  | module header inside closing rest ihinside ihrest =>
    rcases List.mem_append.1 h with hinside | hrest
    · exact fun token hmem => List.mem_append_right _ (List.mem_append_left _ (ihinside hinside hmem))
    · exact fun token hmem =>
        List.mem_append_right _ (List.mem_append_right _ (List.mem_cons_of_mem _ (ihrest hrest hmem)))

end Items

/-- A source that is cut into the tokens of items exports what they say. -/
theorem exportedFunctions_of_tokens {items : Items} {source : String} (h : Rust.tokens source = .ok items.tokens) :
    exportedFunctions source = .ok (items.found.map Function.meaning) := by
  rw [exportedFunctions, Survey.ofSource, h]
  simp [Survey.ofTokens_items, Survey.functions, ← Items.exports_eq, Items.exports]

end FfiBindings.Rust.Grammar
