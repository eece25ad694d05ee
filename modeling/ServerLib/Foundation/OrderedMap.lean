import Mathlib.Data.List.Induction

/-!
# Ordered maps

What a walk through an ordered map finds first, maps of maps, and maps that a loop fills. The
operations themselves are those of `Std.TreeMap`.
-/
namespace OrderedMap

open Std (TreeMap)

variable {κ ι ν ρ : Type} [Ord κ]

section Walks

variable [Std.TransOrd κ] [Std.LawfulEqOrd κ]

theorem toList_lookup [BEq κ] [LawfulBEq κ] (m : TreeMap κ ν) (k : κ) :
    m.toList.lookup k = m[k]? := by
  cases found : m.toList.lookup k with
  | some v =>
    obtain ⟨before, after, is, -⟩ := List.lookup_eq_some_iff.mp found
    have member : (k, v) ∈ m.toList := by simp [is]
    exact (TreeMap.mem_toList_iff_getElem?_eq_some.mp member).symm
  | none =>
    rw [List.lookup_eq_none_iff] at found
    cases here : m[k]? with
    | none => rfl
    | some v =>
      have other := found (k, v) (TreeMap.mem_toList_iff_getElem?_eq_some.mpr here)
      simp at other

/-- A walk stops at the least key that it takes. -/
theorem findSome?_toList (m : TreeMap κ ν) (f : κ × ν → Option ρ) (r : ρ) :
    m.toList.findSome? f = some r ↔
      ∃ k v, m[k]? = some v ∧ f (k, v) = some r ∧
        ∀ k' v', compare k' k = .lt → m[k']? = some v' → f (k', v') = none := by
  have ordered := m.ordered_keys_toList
  rw [List.findSome?_eq_some_iff]
  constructor
  · rintro ⟨before, ⟨k, v⟩, after, is, takes, passed⟩
    refine ⟨k, v, ?_, takes, fun k' v' less here => ?_⟩
    · exact TreeMap.mem_toList_iff_getElem?_eq_some.mp (by simp [is])
    · have member := TreeMap.mem_toList_iff_getElem?_eq_some.mpr here
      rw [is] at member ordered
      rcases List.mem_append.mp member with first | rest
      · exact passed _ first
      · -- the other keys are greater
        have later := (List.pairwise_append.mp ordered).2.1
        rcases List.mem_cons.mp rest with same | behind
        · obtain ⟨rfl, rfl⟩ := Prod.mk.inj same
          simp at less
        · have greater := (List.pairwise_cons.mp later).1 _ behind
          rw [Std.OrientedCmp.gt_of_lt greater] at less
          cases less
  · rintro ⟨k, v, here, takes, passed⟩
    have member := TreeMap.mem_toList_iff_getElem?_eq_some.mpr here
    obtain ⟨before, after, is⟩ := List.append_of_mem member
    refine ⟨before, (k, v), after, is, takes, fun entry first => ?_⟩
    rw [is] at ordered
    have less := (List.pairwise_append.mp ordered).2.2 entry first (k, v) List.mem_cons_self
    apply passed _ _ less
    exact TreeMap.mem_toList_iff_getElem?_eq_some.mp (by simp [is, first])

end Walks

section Nested

variable [Ord ι]

/-- What a map of maps has for a pair of keys. -/
def lookup₂ (m : TreeMap κ (TreeMap ι ν)) (k : κ) (i : ι) : Option ν :=
  m[k]?.bind fun inner => inner[i]?

/-- Changes the map at a key, which is made if there is none. -/
def within (m : TreeMap κ (TreeMap ι ν)) (k : κ) (f : TreeMap ι ν → TreeMap ι ν) :
    TreeMap κ (TreeMap ι ν) :=
  m.alter k fun inner => some (f (inner.getD ∅))

/-- Takes out a pair of keys, and the map at the first one if nothing is left in it. -/
def eraseWithin (m : TreeMap κ (TreeMap ι ν)) (k : κ) (i : ι) : TreeMap κ (TreeMap ι ν) :=
  match m[k]? with
  | none => m
  | some inner =>
    let inner := inner.erase i
    if inner.isEmpty then m.erase k else m.insert k inner

/-- No key has an empty map. -/
def Inhabited₂ (m : TreeMap κ (TreeMap ι ν)) : Prop :=
  ∀ (k : κ) (inner : TreeMap ι ν), m[k]? = some inner → inner.isEmpty = false

/-- The entries in the order of a walk through the maps. -/
def entries (m : TreeMap κ (TreeMap ι ν)) : List (κ × ι × ν) :=
  m.toList.flatMap fun (k, inner) => inner.toList.map fun (i, v) => (k, i, v)

variable [Std.TransOrd κ] {m : TreeMap κ (TreeMap ι ν)}

theorem inhabited₂_empty : Inhabited₂ (∅ : TreeMap κ (TreeMap ι ν)) := by
  intro k inner here
  simp at here

theorem Inhabited₂.within (inhabited : Inhabited₂ m) (k : κ) {f : TreeMap ι ν → TreeMap ι ν}
    (fills : ∀ inner, (f inner).isEmpty = false) : Inhabited₂ (within m k f) := by
  intro k' inner here
  rw [OrderedMap.within, TreeMap.getElem?_alter] at here
  split at here
  · rw [← Option.some.inj here]
    exact fills _
  · exact inhabited k' inner here

theorem Inhabited₂.eraseWithin (inhabited : Inhabited₂ m) (k : κ) (i : ι) :
    Inhabited₂ (eraseWithin m k i) := by
  intro k' inner here
  unfold OrderedMap.eraseWithin at here
  split at here
  · exact inhabited k' inner here
  · dsimp only at here
    split at here
    · rw [TreeMap.getElem?_erase] at here
      split at here
      · cases here
      · exact inhabited k' inner here
    next something =>
      rw [TreeMap.getElem?_insert] at here
      split at here
      · rw [← Option.some.inj here]
        exact Bool.eq_false_iff.mpr something
      · exact inhabited k' inner here

variable [Std.TransOrd ι]

theorem exists_of_isEmpty_eq_false {inner : TreeMap ι ν} (something : inner.isEmpty = false) :
    ∃ (i : ι) (v : ν), inner[i]? = some v := by
  obtain ⟨i, inside⟩ := TreeMap.isEmpty_eq_false_iff_exists_mem.mp something
  obtain ⟨v, is⟩ := Option.isSome_iff_exists.mp (TreeMap.mem_iff_isSome_getElem?.mp inside)
  exact ⟨i, v, is⟩

theorem Inhabited₂.isEmpty_iff (inhabited : Inhabited₂ m) :
    m.isEmpty = true ↔ ∀ k i, lookup₂ m k i = none := by
  constructor
  · intro empty k i
    rw [lookup₂, TreeMap.getElem?_eq_none (TreeMap.isEmpty_iff_forall_not_mem.mp empty k)]
    rfl
  · intro nothing
    by_contra something
    obtain ⟨k, inner, here⟩ := exists_of_isEmpty_eq_false (Bool.eq_false_iff.mpr something)
    obtain ⟨i, v, inside⟩ := exists_of_isEmpty_eq_false (inhabited k inner here)
    have none_ := nothing k i
    rw [lookup₂, here] at none_
    cases inside.symm.trans none_

omit [Std.TransOrd κ] in
theorem getD_lookup₂ (m : TreeMap κ (TreeMap ι ν)) (k : κ) (i : ι) :
    (m[k]?.getD ∅)[i]? = lookup₂ m k i := by
  rw [lookup₂]
  cases m[k]? with
  | none => simp
  | some inner => rfl

variable [Std.LawfulEqOrd κ] [Std.LawfulEqOrd ι]

theorem mem_entries {k : κ} {i : ι} {v : ν} : (k, i, v) ∈ entries m ↔ lookup₂ m k i = some v := by
  simp only [entries, List.mem_flatMap, List.mem_map, lookup₂, Option.bind_eq_some_iff]
  constructor
  · rintro ⟨⟨k', inner⟩, outside, ⟨⟨i', v'⟩, inside, is⟩⟩
    cases is
    exact ⟨inner, TreeMap.mem_toList_iff_getElem?_eq_some.mp outside,
      TreeMap.mem_toList_iff_getElem?_eq_some.mp inside⟩
  · rintro ⟨inner, outside, inside⟩
    exact ⟨(k, inner), TreeMap.mem_toList_iff_getElem?_eq_some.mpr outside, (i, v),
      TreeMap.mem_toList_iff_getElem?_eq_some.mpr inside, rfl⟩

variable [DecidableEq κ] [DecidableEq ι]

omit [Std.TransOrd ι] [Std.LawfulEqOrd ι] [DecidableEq ι] in
theorem lookup₂_within (m : TreeMap κ (TreeMap ι ν)) (k : κ) (f : TreeMap ι ν → TreeMap ι ν)
    (k' : κ) (i : ι) :
    lookup₂ (within m k f) k' i = if k = k' then (f (m[k]?.getD ∅))[i]? else lookup₂ m k' i := by
  rw [lookup₂, within, TreeMap.getElem?_alter]
  simp only [Std.LawfulEqCmp.compare_eq_iff_eq]
  split
  · rfl
  · rfl

/-- `m[k][i] = v` -/
theorem lookup₂_insert (m : TreeMap κ (TreeMap ι ν)) (k k' : κ) (i i' : ι) (v : ν) :
    lookup₂ (within m k fun inner => inner.insert i v) k' i' =
      if k = k' ∧ i = i' then some v else lookup₂ m k' i' := by
  rw [lookup₂_within]
  by_cases outer : k = k'
  · subst outer
    simp [TreeMap.getElem?_insert, getD_lookup₂]
  · simp [outer]

/-- `m[k].emplace(i, v)` -/
theorem lookup₂_insertIfNew (m : TreeMap κ (TreeMap ι ν)) (k k' : κ) (i i' : ι) (v : ν) :
    lookup₂ (within m k fun inner => inner.insertIfNew i v) k' i' =
      if k = k' ∧ i = i' then some ((lookup₂ m k i).getD v) else lookup₂ m k' i' := by
  rw [lookup₂_within]
  by_cases outer : k = k'
  · subst outer
    rw [TreeMap.getElem?_insertIfNew, ← getD_lookup₂, ← getD_lookup₂]
    by_cases same : i = i'
    · subst same
      by_cases inside : i ∈ m[k]?.getD ∅
      · simp [inside]
      · simp [inside]
    · simp [same]
  · simp [outer]

theorem lookup₂_eraseWithin (m : TreeMap κ (TreeMap ι ν)) (k k' : κ) (i i' : ι) :
    lookup₂ (eraseWithin m k i) k' i' =
      if k = k' ∧ i = i' then none else lookup₂ m k' i' := by
  unfold eraseWithin
  cases here : m[k]? with
  | none =>
    by_cases outer : k = k'
    · subst outer
      simp [lookup₂, here]
    · simp [outer]
  | some inner =>
    have erased : (inner.erase i)[i']? = if i = i' then none else inner[i']? := by
      rw [TreeMap.getElem?_erase]
      simp only [Std.LawfulEqCmp.compare_eq_iff_eq]
    dsimp only
    by_cases outer : k = k'
    · subst outer
      have before : lookup₂ m k i' = inner[i']? := by rw [lookup₂, here]; rfl
      rw [before]
      split
      next nothing =>
        -- what is left at the key is empty
        have gone := TreeMap.getElem?_eq_none (TreeMap.isEmpty_iff_forall_not_mem.mp nothing i')
        rw [gone] at erased
        simp only [lookup₂, TreeMap.getElem?_erase_self, true_and]
        exact erased
      · simp only [lookup₂, TreeMap.getElem?_insert_self, true_and]
        exact erased
    · split
      · simp [lookup₂, TreeMap.getElem?_erase, outer]
      · simp [lookup₂, TreeMap.getElem?_insert, outer]

end Nested

section Filling

variable {μ ε χ : Type}

/-- A loop that writes an entry at its key in each round, or leaves what is there, fills a map
with the entries, if no two of them differ at one key. -/
theorem look_foldl (add : μ → ε → μ) (look : μ → χ → Option ν) (key : ε → χ) (value : ε → ν)
    (here : ∀ m e, look (add m e) (key e) = some (value e) ∨
      look (add m e) (key e) = look m (key e) ∧ (look m (key e)).isSome)
    (there : ∀ m e k, key e ≠ k → look (add m e) k = look m k) (all : List ε)
    (functional : ∀ e ∈ all, ∀ e' ∈ all, key e = key e' → value e = value e') (m : μ)
    (start : ∀ k, look m k = none) (k : χ) (v : ν) :
    look (all.foldl add m) k = some v ↔ ∃ e ∈ all, key e = k ∧ value e = v := by
  induction all using List.reverseRecOn generalizing k v with
  | nil => simp [start]
  | append_singleton es e ih =>
    have before : ∀ k v, look (es.foldl add m) k = some v ↔ ∃ e ∈ es, key e = k ∧ value e = v :=
      ih fun e₁ in₁ e₂ in₂ => functional e₁ (by simp [in₁]) e₂ (by simp [in₂])
    rw [List.foldl_append, List.foldl_cons, List.foldl_nil]
    by_cases same : key e = k
    · subst same
      have written : look (add (es.foldl add m) e) (key e) = some (value e) := by
        rcases here (es.foldl add m) e with new | ⟨old, some_⟩
        · exact new
        · -- what is there has come from an entry with this key
          obtain ⟨v', is⟩ := Option.isSome_iff_exists.mp some_
          obtain ⟨e', member, sameKey, rfl⟩ := (before (key e) v').mp is
          rw [old, is, functional e' (by simp [member]) e (by simp) sameKey]
      rw [written, Option.some.injEq]
      constructor
      · rintro rfl
        exact ⟨e, by simp, rfl, rfl⟩
      · rintro ⟨e', member, sameKey, rfl⟩
        exact functional e (by simp) e' member sameKey.symm
    · rw [there _ e k same, before]
      simp [same]

/-- A loop that stops at an entry it cannot take. -/
theorem foldlM_guard (takes : ε → Bool) (add : μ → ε → μ) (es : List ε) (m : μ) :
    es.foldlM (fun m e => if takes e then some (add m e) else none) m =
      if es.all takes then some (es.foldl add m) else none := by
  induction es generalizing m with
  | nil => rfl
  | cons e es ih =>
    rw [List.foldlM_cons, List.all_cons, List.foldl_cons]
    cases takes e with
    | true => exact ih (add m e)
    | false => rfl

end Filling

end OrderedMap
