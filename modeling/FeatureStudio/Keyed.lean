/-
  FeatureStudio.Keyed: values under text keys, in the order in which the keys first came.

  Putting a value under a key that is there already replaces the value in place.

  Main statements:
    * `get?_put_self`, `get?_put_of_ne`: a put is seen under its own key and under no other.
    * `keys_put`: a new key comes last, a known one keeps its place.
-/

namespace FeatureStudio

/-- Values under text keys, in order. -/
abbrev Keyed (α : Type) := List (String × α)

namespace Keyed

variable {α : Type}

/-- The keys, in order. -/
def keys (m : Keyed α) : List String := m.map Prod.fst

/-- The values, in the order of their keys. -/
def values (m : Keyed α) : List α := m.map Prod.snd

/-- The value under `key`. -/
def get? : Keyed α → String → Option α
  | [], _ => none
  | (k, v) :: rest, key => if k = key then some v else get? rest key

/-- Puts `value` under `key`, in place if the key is there, else at the end. -/
def put : Keyed α → String → α → Keyed α
  | [], key, value => [(key, value)]
  | (k, v) :: rest, key, value =>
    if k = key then (k, value) :: rest else (k, v) :: put rest key value

/-- Puts the pairs one after the other. -/
def ofList (pairs : List (String × α)) : Keyed α := pairs.foldl (fun m p => put m p.1 p.2) []

theorem get?_put_self (m : Keyed α) (key : String) (value : α) :
    get? (put m key value) key = some value := by
  induction m with
  | nil => simp [put, get?]
  | cons p rest ih =>
    obtain ⟨k, v⟩ := p
    by_cases h : k = key <;> simp [put, get?, h, ih]

theorem get?_put_of_ne (m : Keyed α) {key other : String} (value : α) (h : other ≠ key) :
    get? (put m key value) other = get? m other := by
  induction m with
  | nil => simp [put, get?, h.symm]
  | cons p rest ih =>
    obtain ⟨k, v⟩ := p
    by_cases hk : k = key
    · subst hk; simp [put, get?, h.symm]
    · by_cases ho : k = other
      · subst ho; simp [put, get?, hk]
      · simp [put, get?, hk, ho, ih]

theorem keys_put (m : Keyed α) (key : String) (value : α) :
    keys (put m key value) = if key ∈ keys m then keys m else keys m ++ [key] := by
  induction m with
  | nil => simp [put, keys]
  | cons p rest ih =>
    obtain ⟨k, v⟩ := p
    by_cases hk : k = key
    · subst hk; simp [put, keys]
    · have hk' : key ≠ k := fun e => hk e.symm
      simp only [keys] at ih
      by_cases hm : key ∈ List.map Prod.fst rest
      · simp only [put, keys, hk, if_false, List.map_cons, ih, hm, if_true, List.mem_cons, or_true]
      · simp only [put, keys, hk, if_false, List.map_cons, ih, hm, List.mem_cons, hk', or_self,
          List.cons_append]

end Keyed

end FeatureStudio
