import Mathlib.Data.List.Nodup
import Xlsx.Json

/-! # Members of a JSON object

An object is made of members of which only the first one of each name is kept, and these are put in
the order of their names. What is found under a name is what came first.

* **`lookup_eq_some_iff_mem`**, **`lookup_eq_of_perm`**: lists in which no key comes twice.
* **`Json.lookup_keptMembers`**: of members with one name the first one is kept.
* **`Json.lookup_sortedMembers`**: what an object has under a name. -/

namespace Xlsx

section Lookup

variable {α β γ : Type} [DecidableEq α]

/-- What stands in a list with a key is found if no key comes twice. -/
theorem lookup_eq_some_iff_mem {items : List (α × β)} (hkeys : (items.map Prod.fst).Nodup) {key : α}
    {value : β} : items.lookup key = some value ↔ (key, value) ∈ items := by
  induction items with
  | nil => simp
  | cons item items ih =>
    obtain ⟨hfirst, hrest⟩ := List.nodup_cons.mp hkeys
    rw [List.lookup_cons, List.mem_cons]
    by_cases heq : key = item.1
    · have hnone : (key, value) ∉ items := fun hmem => hfirst (heq ▸ List.mem_map_of_mem hmem)
      rw [heq, beq_self_eq_true]
      simp only [Option.some.injEq]
      constructor
      · rintro rfl
        exact .inl rfl
      · rintro (hitem | hmem)
        · exact congrArg Prod.snd hitem.symm
        · exact absurd (heq ▸ hmem) hnone
    · have hne : (key == item.1) = false := by simpa using heq
      simp only [hne]
      rw [ih hrest]
      constructor
      · exact .inr
      · rintro (hitem | hmem)
        · exact absurd (congrArg Prod.fst hitem) heq
        · exact hmem

/-- The order of a list in which no key comes twice makes no difference to what is found. -/
theorem lookup_eq_of_perm {items others : List (α × β)} (hperm : items.Perm others)
    (hkeys : (items.map Prod.fst).Nodup) (key : α) : items.lookup key = others.lookup key := by
  have hothers : (others.map Prod.fst).Nodup := (hperm.map Prod.fst).nodup_iff.mp hkeys
  refine Option.ext fun value => ?_
  rw [lookup_eq_some_iff_mem hkeys, lookup_eq_some_iff_mem hothers, hperm.mem_iff]

/-- What is found among items with other values. -/
theorem lookup_map_value (f : β → γ) (items : List (α × β)) (key : α) :
    (items.map fun item => (item.1, f item.2)).lookup key = (items.lookup key).map f := by
  induction items with
  | nil => rfl
  | cons item items ih =>
    rw [List.map_cons, List.lookup_cons, List.lookup_cons]
    cases key == item.1 with
    | true => rfl
    | false => exact ih

end Lookup

namespace Json

/-- The member of an object with a name. -/
def member? (name : String) : Json → Option Json
  | .object members => members.lookup name
  | _ => none

/-- Members with another one, unless there is one of its name already. -/
def keepMember (kept : List (String × Json)) (m : String × Json) : List (String × Json) :=
  if kept.any (·.1 == m.1) then kept else m :: kept

/-- Members are sorted behind leaving out all but the last one of each name. -/
theorem sortedMembers_eq (members : List (String × Json)) :
    sortedMembers members =
      (members.foldl keepMember []).mergeSort fun a b => decide (¬ b.1 < a.1) := rfl

/-- One more member: it is found unless there is one of its name already. -/
theorem lookup_keepMember {kept : List (String × Json)} (hkeys : (kept.map Prod.fst).Nodup)
    (m : String × Json) :
    ((keepMember kept m).map Prod.fst).Nodup ∧
      ∀ name, (keepMember kept m).lookup name = (kept.lookup name).or ([m].lookup name) := by
  obtain ⟨key, value⟩ := m
  have hother : ∀ {name} (items : List (String × Json)), name ≠ key →
      ((key, value) :: items).lookup name = items.lookup name := by
    intro name items hne
    have hfalse : (name == key) = false := by simpa using hne
    rw [List.lookup_cons, hfalse]
  unfold keepMember
  split
  · rename_i hany
    obtain ⟨m, hmem, hname⟩ := List.any_eq_true.mp hany
    have hkey : m.1 = key := eq_of_beq hname
    have hfound : kept.lookup key = some m.2 :=
      (lookup_eq_some_iff_mem hkeys).mpr (by rw [← hkey]; exact hmem)
    refine ⟨hkeys, fun name => ?_⟩
    by_cases heq : name = key
    · rw [heq, hfound, Option.some_or]
    · rw [hother [] heq, List.lookup_nil, Option.or_none]
  · rename_i hany
    have hnew : ∀ m ∈ kept, m.1 ≠ key := fun m hmem heq =>
      hany (List.any_eq_true.mpr ⟨m, hmem, by simp [heq]⟩)
    have hnone : kept.lookup key = none := by
      rw [List.lookup_eq_none_iff]
      intro m hmem
      simpa using (hnew m hmem).symm
    refine ⟨List.nodup_cons.mpr ⟨?_, hkeys⟩, fun name => ?_⟩
    · intro hmem
      obtain ⟨m, hm, hname⟩ := List.mem_map.mp hmem
      exact hnew m hm hname
    · by_cases heq : name = key
      · rw [heq, hnone, Option.none_or, List.lookup_cons_self, List.lookup_cons_self]
      · rw [hother kept heq, hother [] heq, List.lookup_nil, Option.or_none]

/-- **Of members with one name the first one is kept.** -/
theorem lookup_keptMembers {kept : List (String × Json)} (hkeys : (kept.map Prod.fst).Nodup)
    (members : List (String × Json)) :
    ((members.foldl keepMember kept).map Prod.fst).Nodup ∧
      ∀ name, (members.foldl keepMember kept).lookup name =
        (kept.lookup name).or (members.lookup name) := by
  induction members generalizing kept with
  | nil => exact ⟨hkeys, fun name => by rw [List.lookup_nil, Option.or_none, List.foldl_nil]⟩
  | cons m members ih =>
    obtain ⟨hnext, hlookup⟩ := lookup_keepMember hkeys m
    obtain ⟨hall, hfound⟩ := ih hnext
    refine ⟨hall, fun name => ?_⟩
    rw [List.foldl_cons, hfound name, hlookup name, Option.or_assoc, ← List.lookup_append,
      List.singleton_append]

/-- **What an object has under a name** is what came first under it. -/
theorem lookup_sortedMembers (members : List (String × Json)) (name : String) :
    (sortedMembers members).lookup name = members.lookup name := by
  obtain ⟨hkeys, hfound⟩ := @lookup_keptMembers [] List.nodup_nil members
  have hperm := List.mergeSort_perm (members.foldl keepMember []) fun a b => decide (¬ b.1 < a.1)
  rw [sortedMembers_eq, ← lookup_eq_of_perm hperm.symm hkeys, hfound name, List.lookup_nil,
    Option.none_or]

end Json

end Xlsx
