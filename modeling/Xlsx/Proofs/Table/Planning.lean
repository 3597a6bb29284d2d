import Mathlib.Data.List.Nodup
import Mathlib.Data.List.ReduceOption
import Xlsx.Proofs.Except
import Xlsx.Table.Arguments
import Xlsx.Table.Plan

/-! # Planning and binding

A plan numbers the constraints whose values it wants handed over, and marks the arguments that get one;
binding gives the values that are handed over in this order to the arguments that are marked. The two
only ever meet in the mask and in the order of the values.

* **`Plan.Refuses`**: why an argument makes a query unplannable.
* **`Plan.inOrder`**: the values of the constraints as they are handed over.
* **`Plan.allFirst_nodup`**, **`Plan.places_perm`**: the places of a plan are numbered from one, each once.
* **`Plan.inOrder_placed`**: the values come in the order of the arguments.
* **`Arguments.bindFrom_marked`**: each marked argument gets its own value.
* **`Plan.bind_ofConstraints?`**: binding gives back what was planned. -/

namespace Xlsx

namespace Plan

variable {α : Type}

/-! ## One argument -/

/-- **Why an argument makes a query unplannable**: a constraint on it is no usable equality, or it is
required and there is none. -/
inductive Refuses (constraints : List Constraint) (argument : ColumnDef × Nat) : PlanError → Prop
  | unusable {c : Constraint} (hmem : c ∈ constraints) (hcolumn : c.column = argument.2)
      (hnot : ¬ (c.isUsable = true ∧ c.comparison = .equal)) :
      Refuses constraints argument (.unusableConstraint argument.1.name)
  | missing (hrequired : argument.1.isRequired = true)
      (hnone : ∀ c ∈ constraints, c.column ≠ argument.2) :
      Refuses constraints argument (.missingArgument argument.1.name)

/-- The first constraint on a column, by its number. -/
def firstOn? (constraints : List Constraint) (column : Nat) : Option Nat :=
  constraints.findIdx? (·.column == column)

/-- The value of the first constraint on a column. -/
def valueOf? (offered : List (Constraint × α)) (column : Nat) : Option α :=
  (offered.find? (·.1.column == column)).map Prod.snd

section Choose

variable {constraints : List Constraint} {argument : ColumnDef × Nat}

/-- A plan uses equalities alone, and only those that may be used. -/
theorem isUsableEquality_iff (c : Constraint) :
    isUsableEquality c = true ↔ c.isUsable = true ∧ c.comparison = .equal := by
  rw [isUsableEquality, Bool.and_eq_true, beq_iff_eq]

/-- The constraints on an argument are usable equalities unless it is refused for one of them. -/
theorem all_own_iff :
    ((constraints.zipIdx.filter fun p => p.1.column == argument.2).all fun p => isUsableEquality p.1) =
        true ↔
      ∀ c ∈ constraints, c.column = argument.2 → c.isUsable = true ∧ c.comparison = .equal := by
  rw [List.all_eq_true]
  constructor
  · intro h c hc hcolumn
    obtain ⟨i, hi, rfl⟩ := List.mem_iff_getElem.mp hc
    apply (isUsableEquality_iff _).mp
    refine h (constraints[i], i) (List.mem_filter.mpr ⟨?_, by simpa using hcolumn⟩)
    exact List.mk_mem_zipIdx_iff_getElem?.mpr (List.getElem?_eq_getElem hi)
  · rintro h ⟨c, i⟩ hp
    obtain ⟨hmem, hcolumn⟩ := List.mem_filter.mp hp
    have hc : c ∈ constraints := List.mem_of_getElem? (List.mk_mem_zipIdx_iff_getElem?.mp hmem)
    exact (isUsableEquality_iff c).mpr (h c hc (by simpa using hcolumn))

/-- The first of the constraints on a column. -/
theorem head?_own (constraints : List Constraint) (column : Nat) :
    (constraints.zipIdx.filter fun p => p.1.column == column).head?.map Prod.snd =
      firstOn? constraints column := by
  rw [List.head?_filter, firstOn?, List.findIdx?_eq_fst_find?_zipIdx]

/-- A column without a first constraint has none. -/
theorem firstOn?_eq_none {column : Nat} :
    firstOn? constraints column = none ↔ ∀ c ∈ constraints, c.column ≠ column := by
  rw [firstOn?, List.findIdx?_eq_none_iff]
  simp

/-- **An argument that is refused** is the end of the plan, and of its fault the plan says so. -/
theorem choose_of_refuses {cause : PlanError} (h : Refuses constraints argument cause) :
    choose constraints argument = .error cause := by
  cases h with
  | unusable hmem hcolumn hnot =>
    rw [choose, if_pos]
    rw [Bool.not_eq_true', Bool.eq_false_iff]
    exact fun hall => hnot (all_own_iff.mp hall _ hmem hcolumn)
  | missing hrequired hnone =>
    have hall := all_own_iff.mpr fun c hc hcolumn => absurd hcolumn (hnone c hc)
    have hown : (constraints.zipIdx.filter fun p => p.1.column == argument.2) = [] := by
      have hhead := (head?_own constraints argument.2).trans (firstOn?_eq_none.mpr hnone)
      exact List.head?_eq_none_iff.mp (Option.map_eq_none_iff.mp hhead)
    rw [choose, if_neg (by simp [hall])]
    simp only [hown]
    rw [if_pos hrequired]

/-- **An argument that is not refused** gets its value from the first constraint on it. -/
theorem choose_of_not_refused (h : ∀ cause, ¬ Refuses constraints argument cause) :
    choose constraints argument = .ok (firstOn? constraints argument.2) := by
  have hall := all_own_iff.mpr fun c hc hcolumn => by_contra fun hnot => h _ (.unusable hc hcolumn hnot)
  have hhead := head?_own constraints argument.2
  rw [choose, if_neg (by simp [hall])]
  cases hown : constraints.zipIdx.filter fun p => p.1.column == argument.2 with
  | cons p rest =>
    rw [← hhead, hown]
    rfl
  | nil =>
    have hnone : firstOn? constraints argument.2 = none := by rw [← hhead, hown]; rfl
    simp only
    rw [if_neg, hnone]
    exact fun hrequired => h _ (.missing hrequired (firstOn?_eq_none.mp hnone))

end Choose

/-! ## All arguments -/

/-- **Which queries cannot be planned**: the first argument that is refused names the fault. -/
theorem ofConstraints?_eq_error {schema : Schema} {constraints : List Constraint} {cause : PlanError} :
    ofConstraints? schema constraints = .error cause ↔
      ∃ before argument after, schema.arguments = before ++ argument :: after ∧
        (∀ a ∈ before, ∀ other, ¬ Refuses constraints a other) ∧ Refuses constraints argument cause := by
  have hchoose : ofConstraints? schema constraints = .error cause ↔
      schema.arguments.mapM (choose constraints) = .error cause := by
    rw [ofConstraints?]
    cases schema.arguments.mapM (choose constraints) <;> simp [bind, Except.bind, pure, Except.pure]
  have hok : ∀ a, (∃ i, choose constraints a = .ok i) ↔ ∀ other, ¬ Refuses constraints a other := by
    intro a
    constructor
    · rintro ⟨i, hi⟩ other hrefused
      rw [choose_of_refuses hrefused] at hi
      simp at hi
    · exact fun h => ⟨_, choose_of_not_refused h⟩
  have herror : ∀ a, choose constraints a = .error cause ↔ Refuses constraints a cause := by
    intro a
    refine ⟨fun h => ?_, choose_of_refuses⟩
    by_contra hnot
    have hrefused : ∃ other, Refuses constraints a other := by
      by_contra hnone
      rw [choose_of_not_refused (not_exists.mp hnone)] at h
      simp at h
    obtain ⟨other, hother⟩ := hrefused
    rw [choose_of_refuses hother] at h
    exact hnot (Except.error.inj h ▸ hother)
  rw [hchoose, mapM_eq_error]
  simp only [hok, herror]

/-! ## The places of a plan -/

/-- The constraints that give the columns their values. -/
def allFirst (constraints : List Constraint) (columns : List Nat) : List Nat :=
  columns.filterMap (firstOn? constraints)

section Places

variable {constraints : List Constraint} {columns : List Nat}

/-- The first constraint on a column is one on that column. -/
theorem column_of_firstOn? {column i : Nat} (h : firstOn? constraints column = some i) :
    constraints[i]?.map (·.column) = some column := by
  obtain ⟨hi, hcolumn, -⟩ := List.findIdx?_eq_some_iff_getElem.mp h
  rw [List.getElem?_eq_getElem hi, Option.map_some, beq_iff_eq.mp hcolumn]

/-- The constraints that are chosen are among those that are offered. -/
theorem lt_of_mem_allFirst {i : Nat} (h : i ∈ allFirst constraints columns) : i < constraints.length := by
  obtain ⟨column, -, hfirst⟩ := List.mem_filterMap.mp h
  exact (List.findIdx?_eq_some_iff_getElem.mp hfirst).1

/-- **Each constraint gives its value to one column at most.** -/
theorem allFirst_nodup (hcolumns : columns.Nodup) : (allFirst constraints columns).Nodup := by
  refine List.Nodup.filterMap ?_ hcolumns
  intro column other i hcolumn hother
  have heq := (column_of_firstOn? hcolumn).symm.trans (column_of_firstOn? hother)
  exact Option.some.inj heq

/-- The place of a constraint among those that give values, counting from one. -/
def placeIn? (given : List Nat) (i : Nat) : Option Nat := (given.idxOf? i).map (· + 1)

/-- Places are counted from one, in the order of the chosen constraints. -/
theorem placeIn?_eq_some {given : List Nat} (hgiven : given.Nodup) {i place : Nat} :
    placeIn? given i = some place ↔ ∃ j, place = j + 1 ∧ given[j]? = some i := by
  rw [placeIn?, Option.map_eq_some_iff]
  constructor
  · rintro ⟨j, hj, rfl⟩
    obtain ⟨hlt, hi, -⟩ := List.idxOf?_eq_some_iff.mp hj
    exact ⟨j, rfl, by rw [List.getElem?_eq_getElem hlt, hi]⟩
  · rintro ⟨j, rfl, hj⟩
    obtain ⟨hlt, hi⟩ := List.getElem?_eq_some_iff.mp hj
    refine ⟨j, List.idxOf?_eq_some_iff.mpr ⟨hlt, hi, ?_⟩, rfl⟩
    intro k hk heq
    have hsame : k = j := (hgiven.getElem_inj_iff).mp (heq.trans hi.symm)
    omega

/-- **The places of a plan** are numbered from one, each once. -/
theorem places_perm {given : List Nat} (hgiven : given.Nodup) {n : Nat} (hlt : ∀ i ∈ given, i < n) :
    ((List.range n).map (placeIn? given)).reduceOption.Perm (List.range' 1 given.length) := by
  have hsame : ((List.range n).map (placeIn? given)).reduceOption =
      (List.range n).filterMap (placeIn? given) := by
    rw [List.reduceOption, List.filterMap_map]
    rfl
  rw [hsame]
  apply (List.perm_ext_iff_of_nodup _ List.nodup_range').mpr
  · intro place
    rw [List.mem_filterMap, List.mem_range'_1]
    constructor
    · rintro ⟨i, -, hplace⟩
      obtain ⟨j, rfl, hj⟩ := (placeIn?_eq_some hgiven).mp hplace
      have hlength := (List.getElem?_eq_some_iff.mp hj).1
      omega
    · rintro ⟨hone, hend⟩
      have hlength : place - 1 < given.length := by omega
      have hi := List.getElem?_eq_getElem hlength
      refine ⟨given[place - 1], List.mem_range.mpr (hlt _ (List.getElem_mem hlength)), ?_⟩
      exact (placeIn?_eq_some hgiven).mpr ⟨place - 1, by omega, hi⟩
  · refine List.Nodup.filterMap ?_ List.nodup_range
    intro i i' place hplace hplace'
    obtain ⟨j, rfl, hj⟩ := (placeIn?_eq_some hgiven).mp hplace
    obtain ⟨j', heq, hj'⟩ := (placeIn?_eq_some hgiven).mp hplace'
    have hsame : j' = j := by omega
    rw [hsame, hj] at hj'
    exact Option.some.inj hj'

end Places

/-! ## The values as they are handed over -/

/-- The values that have a place, each with its place. -/
def placed (places : List (Option Nat)) (values : List α) : List (Nat × α) :=
  (places.zip values).filterMap fun q => q.1.map fun place => (place, q.2)

/-- **The values of the constraints in the order of their places**; constraints without a place hand
nothing over. -/
def inOrder (p : Plan) (values : List α) : List α :=
  ((placed p.places values).mergeSort fun a b => decide (a.1 ≤ b.1)).map Prod.snd

/-- A value is given to the place that its constraint has. -/
theorem mem_placed {places : List (Option Nat)} {values : List α} {place : Nat} {value : α} :
    (place, value) ∈ placed places values ↔
      ∃ i : Nat, places[i]? = some (some place) ∧ values[i]? = some value := by
  simp only [placed, List.mem_filterMap, Option.map_eq_some_iff, Prod.mk.injEq]
  constructor
  · rintro ⟨⟨_, v⟩, hmem, _, rfl, rfl, rfl⟩
    obtain ⟨i, hi⟩ := List.mem_iff_getElem?.mp hmem
    exact ⟨i, List.getElem?_zip_eq_some.mp hi⟩
  · rintro ⟨i, hplace, hvalue⟩
    refine ⟨(some place, value), ?_, place, rfl, rfl, rfl⟩
    exact List.mem_iff_getElem?.mpr ⟨i, List.getElem?_zip_eq_some.mpr ⟨hplace, hvalue⟩⟩

/-- The places that values are given to are those of the plan. -/
theorem placed_keys {places : List (Option Nat)} {values : List α} (h : places.length ≤ values.length) :
    (placed places values).map Prod.fst = places.reduceOption := by
  induction places generalizing values with
  | nil => rfl
  | cons place? places ih =>
    cases values with
    | nil => simp at h
    | cons value values =>
      have hrest := ih (Nat.le_of_succ_le_succ h)
      cases place? with
      | none => exact hrest
      | some place => exact congrArg (place :: ·) hrest

/-- A list is sorted by its keys into the only list of the same members whose keys ascend. -/
theorem mergeSort_eq_of_ascending {pairs sorted : List (Nat × α)} (hnodup : (pairs.map Prod.fst).Nodup)
    (hascending : sorted.Pairwise fun a b => a.1 < b.1) (hmem : ∀ p, p ∈ pairs ↔ p ∈ sorted) :
    (pairs.mergeSort fun a b => decide (a.1 ≤ b.1)) = sorted := by
  have hsorted : (pairs.mergeSort fun a b => decide (a.1 ≤ b.1)).Pairwise
      fun a b => decide (a.1 ≤ b.1) = true := by
    apply List.pairwise_mergeSort
    · intro a b c hab hbc
      simp only [decide_eq_true_eq] at *
      omega
    · intro a b
      simp only [Bool.or_eq_true, decide_eq_true_eq]
      omega
  have hperm : pairs.Perm sorted := by
    apply (List.perm_ext_iff_of_nodup (List.Nodup.of_map _ hnodup) ?_).mpr hmem
    exact hascending.imp fun hlt heq => by rw [heq] at hlt; exact Nat.lt_irrefl _ hlt
  refine List.Perm.eq_of_pairwise ?_ hsorted (hascending.imp fun hlt => ?_)
    ((List.mergeSort_perm _ _).trans hperm)
  · intro a b ha hb hab hba
    have hkeys : a.1 = b.1 := by simp only [decide_eq_true_eq] at *; omega
    have ha : a ∈ pairs := List.mem_mergeSort.mp ha
    exact List.inj_on_of_nodup_map hnodup ha ((hmem b).mpr hb) hkeys
  · simp only [decide_eq_true_eq]
    omega

/-- **The values that are handed over** are those of the constraints that give values, in their order. -/
theorem inOrder_placed {p : Plan} {given : List Nat} (hgiven : given.Nodup) {values : List α}
    (hlt : ∀ i ∈ given, i < values.length)
    (hplaces : p.places = (List.range values.length).map (placeIn? given)) :
    p.inOrder values = given.filterMap (values[·]?) := by
  have hplace : ∀ i place, p.places[i]? = some (some place) ↔
      i < values.length ∧ ∃ j, place = j + 1 ∧ given[j]? = some i := by
    intro i place
    rw [hplaces, List.getElem?_map, Option.map_eq_some_iff, ← placeIn?_eq_some hgiven]
    constructor
    · rintro ⟨i', hi', hplace⟩
      obtain ⟨hi, rfl⟩ := List.getElem?_eq_some_iff.mp hi'
      rw [List.getElem_range] at hplace
      exact ⟨by simpa using hi, hplace⟩
    · rintro ⟨hi, hplace⟩
      exact ⟨i, List.getElem?_range hi, hplace⟩
  have hsorted : ((placed p.places values).mergeSort fun a b => decide (a.1 ≤ b.1)) =
      given.zipIdx.filterMap fun q => values[q.1]?.map fun value => (q.2 + 1, value) := by
    apply mergeSort_eq_of_ascending
    · rw [placed_keys (by rw [hplaces]; simp), hplaces]
      exact (places_perm hgiven hlt).nodup_iff.mpr List.nodup_range'
    · have hascending : given.zipIdx.Pairwise fun q q' => q.2 < q'.2 := by
        apply List.pairwise_map.mp
        rw [List.zipIdx_map_snd]
        exact List.pairwise_lt_range'
      rw [List.pairwise_filterMap]
      refine hascending.imp fun hlt a ha b hb => ?_
      obtain ⟨value, -, rfl⟩ := Option.map_eq_some_iff.mp ha
      obtain ⟨value', -, rfl⟩ := Option.map_eq_some_iff.mp hb
      exact Nat.succ_lt_succ hlt
    · rintro ⟨place, value⟩
      simp only [mem_placed, hplace, List.mem_filterMap, Option.map_eq_some_iff, Prod.mk.injEq]
      constructor
      · rintro ⟨i, ⟨-, j, rfl, hj⟩, hvalue⟩
        exact ⟨(i, j), List.mk_mem_zipIdx_iff_getElem?.mpr hj, value, hvalue, rfl, rfl⟩
      · rintro ⟨⟨i, j⟩, hmem, _, hvalue, rfl, rfl⟩
        have hj := List.mk_mem_zipIdx_iff_getElem?.mp hmem
        exact ⟨i, ⟨(List.getElem?_eq_some_iff.mp hvalue).1, j, rfl, hj⟩, hvalue⟩
  have hvalues : (fun q : Nat × Nat => (values[q.1]?.map fun value => (q.2 + 1, value)).map Prod.snd) =
      (values[·]?) ∘ Prod.fst := by
    funext q
    simp [Function.comp_def]
  rw [inOrder, hsorted, List.map_filterMap, hvalues, ← List.filterMap_map, List.zipIdx_map_fst]

/-- The value of the first constraint on a column is that of the constraint with its number. -/
theorem firstOn?_bind (offered : List (Constraint × α)) (column : Nat) :
    ((firstOn? (offered.map Prod.fst) column).bind fun i => (offered.map Prod.snd)[i]?) =
      valueOf? offered column := by
  induction offered with
  | nil => rfl
  | cons offer offered ih =>
    rw [firstOn?, List.map_cons, List.findIdx?_cons, valueOf?, List.find?_cons]
    cases hcolumn : offer.1.column == column with
    | true => rfl
    | false =>
      rw [← valueOf?, ← ih, firstOn?]
      simp [Option.bind_map, Function.comp_def]

/-- A column has a value if there is a constraint on it. -/
theorem isSome_valueOf? (offered : List (Constraint × α)) (column : Nat) :
    (valueOf? offered column).isSome = (firstOn? (offered.map Prod.fst) column).isSome := by
  rw [Bool.eq_iff_iff, valueOf?, Option.isSome_map, List.find?_isSome, firstOn?, List.findIdx?_isSome,
    List.any_map, List.any_eq_true]
  rfl

/-! ## The mask -/

/-- A column sets its own bit, if there is a constraint on it. -/
theorem maskFrom_cons (first : Option Nat) (chosen : List (Option Nat)) (i : Nat) :
    maskFrom i (first :: chosen) =
      (if first.isSome then BitVec.twoPow 32 i else 0) ||| maskFrom (i + 1) chosen := by
  cases first <;> simp [maskFrom]

/-- The bits of the columns before are not set. -/
theorem getLsbD_maskFrom_of_lt (chosen : List (Option Nat)) {i j : Nat} (h : j < i) :
    (maskFrom i chosen).getLsbD j = false := by
  induction chosen generalizing i with
  | nil => simp [maskFrom]
  | cons first chosen ih =>
    rw [maskFrom_cons, BitVec.getLsbD_or, ih (Nat.lt_succ_of_lt h), Bool.or_false]
    split
    · rw [BitVec.getLsbD_twoPow]
      simp
      omega
    · simp

/-- **A bit of the mask** is set if its argument has a value. -/
theorem getLsbD_maskFrom (chosen : List (Option Nat)) (i j : Nat) :
    (maskFrom i chosen).getLsbD (i + j) = (decide (i + j < 32) && chosen[j]?.join.isSome) := by
  induction chosen generalizing i j with
  | nil => simp [maskFrom]
  | cons first chosen ih =>
    rw [maskFrom_cons, BitVec.getLsbD_or]
    cases j with
    | zero =>
      have hrest : (maskFrom (i + 1) chosen).getLsbD (i + 0) = false :=
        getLsbD_maskFrom_of_lt chosen (Nat.lt_succ_self i)
      rw [hrest, Bool.or_false]
      cases first <;> simp
    | succ j =>
      have hj : i + (j + 1) = i + 1 + j := by omega
      have hne : (if first.isSome then BitVec.twoPow 32 i else 0).getLsbD (i + (j + 1)) = false := by
        split <;> simp
      rw [hne, hj, ih]
      rfl

/-- The set bits of a word are counted from the lowest. -/
theorem cpopNatRec_eq_countP (mask : BitVec 32) (n acc : Nat) :
    mask.cpopNatRec n acc = acc + (List.range n).countP mask.getLsbD := by
  induction n generalizing acc with
  | zero => rfl
  | succ n ih =>
    rw [BitVec.cpopNatRec_succ, ih, List.range_succ, List.countP_append, List.countP_singleton]
    cases mask.getLsbD n <;> simp
    omega

/-- Counting the members of a list by their numbers. -/
theorem countP_range (chosen : List (Option Nat)) {n : Nat} (h : chosen.length ≤ n) :
    (List.range n).countP (fun j => chosen[j]?.join.isSome) = chosen.reduceOption.length := by
  induction chosen generalizing n with
  | nil => simp [List.reduceOption]
  | cons first chosen ih =>
    obtain ⟨n, rfl⟩ : ∃ m, n = m + 1 := ⟨n - 1, by simp at h; omega⟩
    have hrest := ih (Nat.le_of_succ_le_succ h)
    rw [List.range_succ_eq_map, List.countP_cons, List.countP_map]
    cases first with
    | none => simpa [List.reduceOption, Function.comp_def] using hrest
    | some place => simpa [List.reduceOption, Function.comp_def] using hrest

/-- **How many bits of the mask are set**: as many as there are arguments with a value. -/
theorem cpop_maskFrom {chosen : List (Option Nat)} (h : chosen.length ≤ 32) :
    (maskFrom 0 chosen).cpop.toNat = chosen.reduceOption.length := by
  rw [BitVec.toNat_cpop, cpopNatRec_eq_countP, Nat.zero_add, ← countP_range chosen h]
  apply List.countP_congr
  intro j hj
  have hbit := getLsbD_maskFrom chosen 0 j
  rw [Nat.zero_add] at hbit
  rw [hbit]
  simp [List.mem_range.mp hj]

end Plan

/-! ## Binding -/

namespace Arguments

/-- **Each marked argument gets its own value**, if the values that are handed over are those of the
marked arguments in their order. -/
theorem bindFrom_marked {mask : BitVec 32} {arguments : List (ColumnDef × Nat)} {i : Nat}
    {value? : ColumnDef × Nat → Option SqlValue}
    (hmask : ∀ j argument, arguments[j]? = some argument →
      mask.getLsbD (i + j) = (value? argument).isSome) :
    bindFrom mask i arguments (arguments.filterMap value?) =
      .ok (arguments.filterMap fun a => (value? a).map fun value => (a.1.name, value)) := by
  induction arguments generalizing i with
  | nil => rfl
  | cons argument arguments ih =>
    obtain ⟨column, place⟩ := argument
    have hfirst : mask.getLsbD i = (value? (column, place)).isSome := hmask 0 _ rfl
    have hrest := ih (i := i + 1) fun j a ha => by
      rw [Nat.add_assoc, Nat.add_comm 1 j]
      exact hmask (j + 1) a ha
    cases hvalue : value? (column, place) with
    | none =>
      rw [List.filterMap_cons_none hvalue, List.filterMap_cons_none (by rw [hvalue]; rfl), ← hrest,
        bindFrom.eq_def]
      simp [hfirst, hvalue]
    | some value =>
      rw [List.filterMap_cons_some hvalue, List.filterMap_cons_some (by rw [hvalue]; rfl),
        bindFrom.eq_def]
      simp only [hfirst, hvalue, hrest]
      rfl

/-- What is bound to a name: the value of the argument with that name, if there is one. -/
theorem lookup_bound {arguments : List (ColumnDef × Nat)} {value? : ColumnDef × Nat → Option SqlValue}
    (hnames : (arguments.map fun a => a.1.name).Nodup) (name : String) :
    (arguments.filterMap fun a => (value? a).map fun value => (a.1.name, value)).lookup name =
      (arguments.find? fun a => a.1.name == name).bind value? := by
  induction arguments with
  | nil => rfl
  | cons argument arguments ih =>
    rw [List.map_cons, List.nodup_cons] at hnames
    have hrest := ih hnames.2
    rw [List.filterMap_cons, List.find?_cons]
    cases hname : argument.1.name == name with
    | false =>
      cases value? argument with
      | none => exact hrest
      | some value => simpa [List.lookup_cons, BEq.comm (a := name), hname] using hrest
    | true =>
      cases hvalue : value? argument with
      | some value => simp [List.lookup_cons, BEq.comm (a := name), hname, hvalue]
      | none =>
        have hnone : (arguments.find? fun a => a.1.name == name) = none := by
          rw [List.find?_eq_none]
          intro a ha hsame
          apply hnames.1
          rw [beq_iff_eq.mp hname, ← beq_iff_eq.mp hsame]
          exact List.mem_map_of_mem ha
        simp [hrest, hnone, hvalue]

end Arguments

/-! ## Schemas -/

namespace Schema

variable {schema : Schema}

/-- The arguments are the hidden columns. -/
theorem mem_arguments {p : ColumnDef × Nat} :
    p ∈ schema.arguments ↔ p ∈ schema.zipIdx ∧ p.1.isHidden = true := List.mem_filter

/-- The places of the arguments are different. -/
theorem arguments_places_nodup (schema : Schema) : (schema.arguments.map Prod.snd).Nodup := by
  refine List.Nodup.sublist (List.filter_sublist.map Prod.snd) ?_
  rw [List.zipIdx_map_snd]
  exact List.nodup_range'

/-- Numbering the columns leaves their names as they are. -/
theorem zipIdx_names (schema : Schema) :
    (schema.zipIdx.map fun p => p.1.name) = schema.map (·.name) := by
  have hsplit : (schema.zipIdx.map fun p => p.1.name) = (schema.zipIdx.map Prod.fst).map (·.name) := by
    rw [List.map_map]
    rfl
  rw [hsplit, List.zipIdx_map_fst]

/-- The argument with the name of a column: the column itself, if it is one and names are different. -/
theorem find?_arguments (hnames : (schema.map (·.name)).Nodup) {p : ColumnDef × Nat}
    (hp : p ∈ schema.zipIdx) :
    (schema.arguments.find? fun a => a.1.name == p.1.name) = if p.1.isHidden then some p else none := by
  have hsame : ∀ a ∈ schema.zipIdx, a.1.name = p.1.name → a = p := by
    intro a ha hname
    rw [← zipIdx_names] at hnames
    exact List.inj_on_of_nodup_map hnames ha hp hname
  split
  · rename_i hhidden
    have hmem := mem_arguments.mpr ⟨hp, hhidden⟩
    cases hfind : schema.arguments.find? fun a => a.1.name == p.1.name with
    | none => exact absurd (BEq.refl p.1.name) (by simpa using List.find?_eq_none.mp hfind p hmem)
    | some a =>
      have ha := (mem_arguments.mp (List.mem_of_find?_eq_some hfind)).1
      have hname := List.find?_some hfind
      rw [hsame a ha (beq_iff_eq.mp hname)]
  · rename_i hvisible
    rw [List.find?_eq_none]
    intro a ha hname
    obtain ⟨hmem, hhidden⟩ := mem_arguments.mp ha
    rw [hsame a hmem (beq_iff_eq.mp hname)] at hhidden
    exact hvisible hhidden

end Schema

/-! ## Planning and binding -/

namespace Plan

/-- **The plan of a query without a refused argument.** -/
theorem ofConstraints?_eq_ok {schema : Schema} {constraints : List Constraint}
    (h : ∀ argument ∈ schema.arguments, ∀ cause, ¬ Refuses constraints argument cause) :
    ∃ plan, ofConstraints? schema constraints = .ok plan ∧
      plan.mask = maskFrom 0 (schema.arguments.map fun a => firstOn? constraints a.2) ∧
      plan.places = (List.range constraints.length).map
        (placeIn? (allFirst constraints (schema.arguments.map Prod.snd))) := by
  have hgiven : (schema.arguments.map fun a => firstOn? constraints a.2).filterMap id =
      allFirst constraints (schema.arguments.map Prod.snd) := by
    rw [allFirst, List.filterMap_map, List.filterMap_map]
    rfl
  have hchosen := mapM_of_ok fun a ha => choose_of_not_refused (h a ha)
  rw [ofConstraints?, hchosen, ← hgiven]
  exact ⟨_, rfl, rfl, rfl⟩

/-- **Binding gives back what was planned.** Constraints with values are offered to a schema whose names
are different, with no more arguments than the mask has bits. They cannot be planned exactly if an
argument is refused, and then the first one names the fault. Else the places of the plan are numbered
from one, each once, as many as bits of its mask are set; and binding the values in the order of their
places gives each argument the value of the first constraint on it, and nothing to an argument without
a constraint or to any other column. -/
theorem bind_ofConstraints? {schema : Schema} (hnames : (schema.map (·.name)).Nodup)
    (hbits : schema.arguments.length ≤ 32) (offered : List (Constraint × SqlValue)) :
    (∀ cause, ofConstraints? schema (offered.map Prod.fst) = .error cause ↔
      ∃ before argument after, schema.arguments = before ++ argument :: after ∧
        (∀ a ∈ before, ∀ other, ¬ Refuses (offered.map Prod.fst) a other) ∧
        Refuses (offered.map Prod.fst) argument cause) ∧
    ((∀ argument ∈ schema.arguments, ∀ cause, ¬ Refuses (offered.map Prod.fst) argument cause) ↔
      ∃ plan, ofConstraints? schema (offered.map Prod.fst) = .ok plan) ∧
    ∀ plan, ofConstraints? schema (offered.map Prod.fst) = .ok plan →
      plan.places.length = offered.length ∧
      plan.places.reduceOption.Perm (List.range' 1 plan.mask.cpop.toNat) ∧
      ∃ bound, Arguments.bind schema plan.mask (plan.inOrder (offered.map Prod.snd)) = .ok bound ∧
        ∀ p ∈ schema.zipIdx,
          bound.get? p.1.name = if p.1.isHidden then valueOf? offered p.2 else none := by
  have hplanned : (∀ argument ∈ schema.arguments, ∀ cause,
      ¬ Refuses (offered.map Prod.fst) argument cause) ↔
        ∃ plan, ofConstraints? schema (offered.map Prod.fst) = .ok plan := by
    constructor
    · intro h
      obtain ⟨plan, hplan, -⟩ := ofConstraints?_eq_ok h
      exact ⟨plan, hplan⟩
    · rintro ⟨plan, hplan⟩ argument hmem cause hrefused
      obtain ⟨chosen, hchosen, -⟩ := bind_eq_ok.mp hplan
      obtain ⟨i, hi⟩ := ok_of_mapM hchosen argument hmem
      rw [choose_of_refuses hrefused] at hi
      simp at hi
  refine ⟨fun cause => ofConstraints?_eq_error, hplanned, fun plan hplan => ?_⟩
  obtain ⟨plan', hplan', hmask, hplaces⟩ := ofConstraints?_eq_ok (hplanned.mpr ⟨plan, hplan⟩)
  obtain rfl : plan' = plan := Except.ok.inj (hplan'.symm.trans hplan)
  -- The constraints that give values, and the values that they hand over.
  have hgiven : (allFirst (offered.map Prod.fst) (schema.arguments.map Prod.snd)).Nodup :=
    allFirst_nodup schema.arguments_places_nodup
  have hlt : ∀ i ∈ allFirst (offered.map Prod.fst) (schema.arguments.map Prod.snd),
      i < (offered.map Prod.fst).length := fun i => lt_of_mem_allFirst
  have hhanded : plan'.inOrder (offered.map Prod.snd) =
      schema.arguments.filterMap fun a => valueOf? offered a.2 := by
    rw [inOrder_placed hgiven (by simpa using hlt) (by simpa using hplaces), allFirst,
      List.filterMap_map, List.filterMap_filterMap]
    congr 1
    funext a
    exact firstOn?_bind offered a.2
  have hbit : ∀ j argument, schema.arguments[j]? = some argument →
      plan'.mask.getLsbD (0 + j) = (valueOf? offered argument.2).isSome := by
    intro j argument hargument
    have hj : j < 32 := Nat.lt_of_lt_of_le (List.getElem?_eq_some_iff.mp hargument).1 hbits
    rw [hmask, getLsbD_maskFrom, List.getElem?_map, hargument, isSome_valueOf?]
    simpa using fun _ => hj
  have hcount : plan'.mask.cpop.toNat =
      (allFirst (offered.map Prod.fst) (schema.arguments.map Prod.snd)).length := by
    rw [hmask, cpop_maskFrom (by simpa using hbits), List.reduceOption, List.filterMap_map, allFirst,
      List.filterMap_map]
    rfl
  have hbound : Arguments.bind schema plan'.mask (plan'.inOrder (offered.map Prod.snd)) =
      .ok ⟨schema.arguments.filterMap fun a =>
        (valueOf? offered a.2).map fun value => (a.1.name, value)⟩ := by
    rw [Arguments.bind, hhanded, Arguments.bindFrom_marked hbit]
    rfl
  refine ⟨by rw [hplaces]; simp, ?_, _, hbound, fun p hp => ?_⟩
  · rw [hplaces, hcount]
    exact places_perm hgiven hlt
  · have hargs : (schema.arguments.map fun a => a.1.name).Nodup := by
      refine List.Nodup.sublist (List.filter_sublist.map _) ?_
      rw [Schema.zipIdx_names]
      exact hnames
    rw [Arguments.get?, Arguments.lookup_bound hargs, Schema.find?_arguments hnames hp]
    split <;> rfl

/-- Constraints on the cells of a range: the range twice, in front of the workbook, and a visible column. -/
def sampleOffers : List (Constraint × SqlValue) :=
  [(⟨4, .equal, true⟩, .text "A1:B2"), (⟨0, .other, true⟩, .integer 7), (⟨3, .equal, true⟩, .text "w"),
    (⟨4, .equal, true⟩, .text "C3")]

/-- The workbook comes first and the first of the two ranges second. -/
theorem bind_ofConstraints?_cells :
    (Schema.cells.map (·.name)).Nodup ∧ Schema.cells.arguments.length ≤ 32 ∧
      ∃ plan bound, ofConstraints? .cells (sampleOffers.map Prod.fst) = .ok plan ∧
        plan.places = [some 2, none, some 1, none] ∧ plan.mask.cpop.toNat = 2 ∧
        Arguments.bind .cells plan.mask (plan.inOrder (sampleOffers.map Prod.snd)) = .ok bound ∧
        bound.get? "workbook" = some (.text "w") ∧ bound.get? "range" = some (.text "A1:B2") ∧
        bound.get? "sheet" = none ∧ bound.get? "row" = none := by
  have hnames : (Schema.cells.map (·.name)).Nodup := by decide
  have hbits : Schema.cells.arguments.length ≤ 32 := by decide
  have hplanned : (ofConstraints? .cells (sampleOffers.map Prod.fst)).map (fun p => (p.places, p.mask)) =
      .ok ([some 2, none, some 1, none], 3) := by decide
  obtain ⟨plan, hplan, hparts⟩ := map_eq_ok.mp hplanned
  obtain ⟨hplaces, hmask⟩ := Prod.mk.inj hparts
  obtain ⟨-, -, hall⟩ := bind_ofConstraints? hnames hbits sampleOffers
  obtain ⟨-, -, bound, hbound, hget⟩ := hall plan hplan
  refine ⟨hnames, hbits, plan, bound, hplan, hplaces, by rw [hmask]; decide, hbound, ?_, ?_, ?_, ?_⟩
  · exact hget (Schema.argument "workbook" true, 3) (by decide)
  · exact hget (Schema.argument "range" true, 4) (by decide)
  · exact hget (Schema.argument "sheet" false, 5) (by decide)
  · exact hget (Schema.visible "row", 0) (by decide)

end Plan

end Xlsx
