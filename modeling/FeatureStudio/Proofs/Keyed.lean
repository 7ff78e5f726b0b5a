/-
  FeatureStudio.Proofs.Keyed: values put under keys one after the other.

  Main statements:
    * `keys_ofList`: the keys are those of the pairs, every key where it came first.
    * `ofList_subperm`: what is kept are some of the pairs, none more often than it was given.
    * `ofList_eq_self`: pairs whose keys do not repeat are all kept.
    * `get?_of_mem`: where no key repeats, looking up finds what is there.
    * `get?_ofList`, `ofList_eq_lastPairs`: the last pair of a key counts.
    * `ofList_cons`: a pair in front of pairs that have its key again.
-/
import FeatureStudio.Keyed
import Mathlib.Data.List.Induction
import Mathlib.Data.List.Nodup
import Mathlib.Data.List.Perm.Subperm

namespace FeatureStudio.Keyed

variable {α : Type}

/-! ## §1. Keys. -/

theorem ofList_append_single (pairs : List (String × α)) (p : String × α) :
    ofList (pairs ++ [p]) = put (ofList pairs) p.1 p.2 := by
  unfold ofList
  rw [List.foldl_append]
  rfl

/-- An element at the end counts only if it has not come before. -/
theorem eraseDups_append_single {β : Type} [BEq β] [LawfulBEq β] (keys : List β) (key : β) :
    (keys ++ [key]).eraseDups
      = if key ∈ keys.eraseDups then keys.eraseDups else keys.eraseDups ++ [key] := by
  rw [List.eraseDups_append]
  by_cases h : key ∈ keys
  · have hnone : [key].removeAll keys = [] := by simp [List.removeAll, h]
    rw [hnone, if_pos (List.mem_eraseDups.mpr h)]
    simp
  · have hself : [key].removeAll keys = [key] := by simp [List.removeAll, h]
    rw [hself, if_neg (fun hm => h (List.mem_eraseDups.mp hm))]
    simp [List.eraseDups_cons]

/-- **The keys of pairs put one after the other, every key where it came first.** -/
theorem keys_ofList (pairs : List (String × α)) :
    keys (ofList pairs) = (pairs.map Prod.fst).eraseDups := by
  -- pairs are put from the left, so the induction is on the last of them
  induction pairs using List.reverseRecOn with
  | nil => rfl
  | append_singleton pairs p ih =>
      rw [ofList_append_single, keys_put, ih, List.map_append]
      exact (eraseDups_append_single _ _).symm

theorem ofList_eq_nil_iff (pairs : List (String × α)) : ofList pairs = [] ↔ pairs = [] := by
  refine ⟨fun h => ?_, by rintro rfl; rfl⟩
  have hkeys := keys_ofList pairs
  rw [h] at hkeys
  cases pairs with
  | nil => rfl
  | cons p rest =>
      rw [List.map_cons, List.eraseDups_cons] at hkeys
      cases hkeys

theorem mem_keys_put (m : Keyed α) (key : String) (value : α) (other : String) :
    other ∈ keys (put m key value) ↔ other ∈ keys m ∨ other = key := by
  rw [keys_put]
  split
  · next h => exact ⟨.inl, fun hm => hm.elim id fun heq => heq ▸ h⟩
  · rw [List.mem_append, List.mem_singleton]

theorem nodup_keys_put {m : Keyed α} (h : (keys m).Nodup) (key : String) (value : α) :
    (keys (put m key value)).Nodup := by
  rw [keys_put]
  split
  · exact h
  · next hnew =>
      rw [List.nodup_append]
      exact ⟨h, List.nodup_singleton key, fun a ha b hb hab => by
        rw [List.mem_singleton] at hb
        exact hnew (hb ▸ hab ▸ ha)⟩

/-- No key repeats, whatever was put. -/
theorem nodup_keys_ofList (pairs : List (String × α)) : (keys (ofList pairs)).Nodup := by
  induction pairs using List.reverseRecOn with
  | nil => exact List.nodup_nil
  | append_singleton pairs p ih =>
      rw [ofList_append_single]
      exact nodup_keys_put ih p.1 p.2

/-! ## §2. Pairs. -/

theorem mem_put {m : Keyed α} {key : String} {value : α} {p : String × α}
    (h : p ∈ put m key value) : p ∈ m ∨ p = (key, value) := by
  induction m with
  | nil => exact .inr (List.mem_singleton.mp h)
  | cons q rest ih =>
      obtain ⟨k, v⟩ := q
      unfold put at h
      split at h
      · next hk =>
          -- the value is replaced where its key stands
          rcases List.mem_cons.mp h with rfl | hrest
          · exact .inr (by rw [hk])
          · exact .inl (List.mem_cons_of_mem _ hrest)
      · rcases List.mem_cons.mp h with rfl | hrest
        · exact .inl List.mem_cons_self
        · rcases ih hrest with hm | hp
          · exact .inl (List.mem_cons_of_mem _ hm)
          · exact .inr hp

/-- Nothing is kept but what was put. -/
theorem mem_ofList {pairs : List (String × α)} {p : String × α} (h : p ∈ ofList pairs) :
    p ∈ pairs := by
  induction pairs using List.reverseRecOn with
  | nil => exact h
  | append_singleton pairs q ih =>
      rw [ofList_append_single] at h
      rw [List.mem_append, List.mem_singleton]
      exact (mem_put h).imp ih id

theorem nodup_of_nodup_keys {m : Keyed α} (h : (keys m).Nodup) : m.Nodup :=
  List.Nodup.of_map Prod.fst h

/-- **What is kept are some of the pairs**, none more often than it was given. -/
theorem ofList_subperm (pairs : List (String × α)) : (ofList pairs).Subperm pairs :=
  List.subperm_of_subset (nodup_of_nodup_keys (nodup_keys_ofList pairs)) fun _ => mem_ofList

theorem put_of_not_mem {m : Keyed α} {key : String} (value : α) (h : key ∉ keys m) :
    put m key value = m ++ [(key, value)] := by
  induction m with
  | nil => rfl
  | cons q rest ih =>
      obtain ⟨k, v⟩ := q
      have hk : k ≠ key := fun e => h (e ▸ List.mem_cons_self)
      have hrest : key ∉ keys rest := fun e => h (List.mem_cons_of_mem _ e)
      rw [put, if_neg hk, ih hrest]
      rfl

/-- **Pairs whose keys do not repeat are all kept**, in their order. -/
theorem ofList_eq_self {pairs : List (String × α)} (h : (pairs.map Prod.fst).Nodup) :
    ofList pairs = pairs := by
  induction pairs using List.reverseRecOn with
  | nil => rfl
  | append_singleton pairs p ih =>
      rw [List.map_append, List.nodup_append] at h
      obtain ⟨hpairs, -, hne⟩ := h
      have hnew : p.1 ∉ keys pairs := fun hm => hne p.1 hm p.1 (by simp) rfl
      rw [ofList_append_single, ih hpairs, put_of_not_mem p.2 hnew]

/-! ## §3. Looking up. -/

/-- What is found is there under its key. -/
theorem mem_of_get? {m : Keyed α} {key : String} {value : α} (h : get? m key = some value) :
    (key, value) ∈ m := by
  induction m with
  | nil => cases h
  | cons q rest ih =>
      obtain ⟨k, v⟩ := q
      unfold get? at h
      split at h
      · next hk =>
          cases h
          rw [hk]
          exact List.mem_cons_self
      · exact List.mem_cons_of_mem _ (ih h)

/-- Where no key repeats, looking up finds what is there. -/
theorem get?_of_mem {m : Keyed α} {key : String} {value : α} (h : (keys m).Nodup)
    (hm : (key, value) ∈ m) : get? m key = some value := by
  induction m with
  | nil => cases hm
  | cons q rest ih =>
      obtain ⟨k, v⟩ := q
      obtain ⟨hfirst, hrest⟩ := List.nodup_cons.mp h
      rcases List.mem_cons.mp hm with heq | hin
      · cases heq
        exact if_pos rfl
      · have hkey : key ∈ keys rest := List.mem_map_of_mem hin
        have hk : k ≠ key := fun e => hfirst (e ▸ hkey)
        exact (if_neg hk).trans (ih hrest hin)

/-- Looking up finds the value that was put last. -/
theorem get?_ofList (pairs : List (String × α)) (key : String) :
    get? (ofList pairs) key = ((pairs.filter fun p => p.1 = key).getLast?).map Prod.snd := by
  induction pairs using List.reverseRecOn with
  | nil => rfl
  | append_singleton pairs p ih =>
      rw [ofList_append_single, List.filter_append]
      by_cases hkey : p.1 = key
      · rw [← hkey, get?_put_self]
        simp
      · rw [get?_put_of_ne _ _ (Ne.symm hkey), ih]
        simp [hkey]

/-- The last pair of every key, where the key comes first. -/
def lastPairs (pairs : List (String × α)) : List (String × α) :=
  (pairs.map Prod.fst).eraseDups.filterMap fun key => (pairs.filter fun p => p.1 = key).getLast?

theorem mem_lastPairs {pairs : List (String × α)} {key : String} {value : α} :
    (key, value) ∈ lastPairs pairs
      ↔ (pairs.filter fun p => p.1 = key).getLast? = some (key, value) := by
  have hkey : ∀ {k : String} {p : String × α},
      (pairs.filter fun p => p.1 = k).getLast? = some p → p ∈ pairs ∧ p.1 = k := fun h => by
    simpa using List.mem_filter.mp (List.mem_of_getLast? h)
  unfold lastPairs
  rw [List.mem_filterMap]
  constructor
  · rintro ⟨k, -, hlast⟩
    obtain ⟨-, rfl⟩ := hkey hlast
    exact hlast
  · intro hlast
    exact ⟨key, List.mem_eraseDups.mpr (List.mem_map_of_mem (hkey hlast).1), hlast⟩

/-- **Of pairs put one after the other the last one of every key is kept**, where the key came
first. -/
theorem ofList_eq_lastPairs (pairs : List (String × α)) : ofList pairs = lastPairs pairs := by
  have hlast : ∀ key, (pairs.filter fun p => p.1 = key).getLast?
      = (get? (ofList pairs) key).map fun value => (key, value) := by
    intro key
    rw [get?_ofList]
    cases hp : (pairs.filter fun p => p.1 = key).getLast? with
    | none => rfl
    | some p =>
        have hkey : p.1 = key := by simpa using (List.mem_filter.mp (List.mem_of_getLast? hp)).2
        rw [← hkey]
        rfl
  have hfound : ∀ p ∈ ofList pairs,
      ((get? (ofList pairs) p.1).map fun value => (p.1, value)) = some p := fun p hp => by
    rw [get?_of_mem (nodup_keys_ofList pairs) hp]
    rfl
  unfold lastPairs
  rw [← keys_ofList, keys, List.filterMap_map, funext hlast]
  exact (List.filterMap_some.symm.trans (List.filterMap_congr fun p hp => (hfound p hp).symm))

/-- Values may be changed before they are put or afterwards. -/
theorem put_map {β : Type} (f : α → β) (m : Keyed α) (key : String) (value : α) :
    put (m.map fun p => (p.1, f p.2)) key (f value)
      = (put m key value).map fun p => (p.1, f p.2) := by
  induction m with
  | nil => rfl
  | cons q rest ih =>
      rw [List.map_cons, put, put]
      split
      · rfl
      · rw [ih, List.map_cons]

theorem ofList_map {β : Type} (f : α → β) (pairs : List (String × α)) :
    ofList (pairs.map fun p => (p.1, f p.2)) = (ofList pairs).map fun p => (p.1, f p.2) := by
  induction pairs using List.reverseRecOn with
  | nil => rfl
  | append_singleton pairs p ih =>
      rw [List.map_append, List.map_singleton, ofList_append_single, ih, put_map,
        ofList_append_single]

/-! ## §4. A pair in front. -/

theorem put_cons_of_ne (m : Keyed α) {k key : String} (v value : α) (h : k ≠ key) :
    put ((k, v) :: m) key value = (k, v) :: put m key value := if_neg h

theorem get?_of_not_mem {m : Keyed α} {key : String} (h : key ∉ keys m) : get? m key = none := by
  cases hget : get? m key with
  | none => rfl
  | some value => exact absurd (List.mem_map_of_mem (mem_of_get? hget)) h

theorem get?_eq_none_iff (m : Keyed α) (key : String) : get? m key = none ↔ key ∉ keys m := by
  refine ⟨fun h hmem => ?_, get?_of_not_mem⟩
  induction m with
  | nil => cases hmem
  | cons q rest ih =>
      obtain ⟨k, v⟩ := q
      unfold get? at h
      split at h
      · cases h
      · next hk =>
          rcases List.mem_cons.mp hmem with heq | hrest
          · exact hk heq.symm
          · exact ih h hrest

theorem get?_append_single (m : Keyed α) (p : String × α) (key : String) (h : p.1 ∉ keys m) :
    get? (m ++ [p]) key = if p.1 = key then some p.2 else get? m key := by
  rw [← put_of_not_mem p.2 h]
  split
  · next hk => rw [hk, get?_put_self]
  · next hk => exact get?_put_of_ne m p.2 (Ne.symm hk)

/-- **A pair in front of pairs whose keys do not repeat keeps its place, and not its value** if its
key comes again. -/
theorem ofList_cons {pairs : List (String × α)} (h : (pairs.map Prod.fst).Nodup) (key : String)
    (value : α) :
    ofList ((key, value) :: pairs)
      = (key, (get? pairs key).getD value) :: pairs.filter (fun p => p.1 ≠ key) := by
  induction pairs using List.reverseRecOn with
  | nil => rfl
  | append_singleton pairs p ih =>
      rw [List.map_append, List.nodup_append] at h
      obtain ⟨hpairs, -, hne⟩ := h
      have hnew : p.1 ∉ keys pairs := fun hm => hne p.1 hm p.1 (by simp) rfl
      rw [← List.cons_append, ofList_append_single, ih hpairs, get?_append_single pairs p key hnew,
        List.filter_append]
      by_cases hk : p.1 = key
      · -- the key comes again, so it has not come among the pairs before
        subst hk
        simp [put]
      · have hrest : p.1 ∉ keys (pairs.filter fun q => q.1 ≠ key) := fun hm => by
          obtain ⟨q, hq, hqp⟩ := List.mem_map.mp hm
          exact hnew (List.mem_map.mpr ⟨q, List.mem_of_mem_filter hq, hqp⟩)
        rw [put_cons_of_ne _ _ _ (Ne.symm hk), put_of_not_mem p.2 hrest, if_neg hk]
        simp [hk]

end FeatureStudio.Keyed
