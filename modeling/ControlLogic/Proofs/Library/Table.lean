import ControlLogic.Library.Table
import ControlLogic.Proofs.Text.Upper

/-!
Looking routines up. No two routines of the table have one name, so each is found under its own.
-/

set_option autoImplicit false
set_option relaxedAutoImplicit false

namespace ControlLogic.Library

private theorem table_names_nodup : (table.map Prod.fst).Nodup := by
  decide +kernel

theorem lookup?_of_mem {name : String} {routine : Routine}
    (h : (Text.upper name, routine) ∈ table) : lookup? name = some routine := by
  have hdistinct : table.Pairwise fun a b => (a.1 == b.1) = false := by
    have hnodup := List.pairwise_map.mp table_names_nodup
    exact hnodup.imp fun hne => beq_false_of_ne hne
  exact Std.HashMap.getElem?_ofList_of_mem (beq_self_eq_true _) hdistinct h

theorem textRoutines_subset_table : textRoutines ⊆ table := by
  intro entry h
  simp [table, h]

theorem mathRoutines_subset_table : mathRoutines ⊆ table := by
  intro entry h
  simp [table, h]

end ControlLogic.Library
