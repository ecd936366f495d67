import StyleDocs.Text

/-!
# Values in order of first appearance

The values of a property are listed in the order in which a document first names them, each with a
description. Naming a value again replaces its description and leaves it in its place.
-/

namespace StyleDocs

/-- Values with their descriptions, each value once. -/
structure ValueList where
  /-- The values, first seen first, with their descriptions. -/
  pairs : List (Text × Text)
  /-- No value is listed twice. -/
  distinct : (pairs.map Prod.fst).Nodup
  deriving DecidableEq

namespace ValueList

theorem eq_of_pairs_eq {a b : ValueList} (h : a.pairs = b.pairs) : a = b := by
  cases a
  cases b
  cases h
  rfl

/-- The list without values. -/
def empty : ValueList := ⟨[], .nil⟩

instance : Inhabited ValueList := ⟨empty⟩

/-- Replace the description of a value, or add the value at the end. -/
def put (value description : Text) : List (Text × Text) → List (Text × Text)
  | [] => [(value, description)]
  | (v, d) :: rest =>
    if v = value then (v, description) :: rest else (v, d) :: put value description rest

theorem map_fst_put (value description : Text) (pairs : List (Text × Text)) :
    (put value description pairs).map Prod.fst =
      if value ∈ pairs.map Prod.fst then pairs.map Prod.fst
      else pairs.map Prod.fst ++ [value] := by
  induction pairs with
  | nil => simp [put]
  | cons pair rest ih =>
    obtain ⟨v, d⟩ := pair
    by_cases h : v = value
    · simp [put, h]
    · simp only [put, h, if_false, List.map_cons, ih, List.mem_cons, Ne.symm h, false_or]
      split <;> simp

/-- Insert a value with its description. -/
def insert (values : ValueList) (value description : Text) : ValueList where
  pairs := put value description values.pairs
  distinct := by
    rw [map_fst_put]
    split
    · exact values.distinct
    · next h =>
      rw [List.nodup_append]
      refine ⟨values.distinct, by simp, ?_⟩
      intro a ha b hb
      rw [List.mem_singleton.1 hb]
      exact fun he => h (he ▸ ha)

/-- Insert values one after the other. -/
def ofPairs (pairs : List (Text × Text)) : ValueList :=
  pairs.foldl (fun values pair => values.insert pair.1 pair.2) empty

/-- The description of the first pair with the value. -/
def describe (value : Text) : List (Text × Text) → Option Text
  | [] => none
  | (v, d) :: rest => if v = value then some d else describe value rest

/-- The description of a value. -/
def get? (values : ValueList) (value : Text) : Option Text := describe value values.pairs

/-- How many values there are. -/
def size (values : ValueList) : Nat := values.pairs.length

/-- Whether there is no value. -/
def isEmpty (values : ValueList) : Bool := values.pairs.isEmpty

theorem describe_put (value description v : Text) (pairs : List (Text × Text)) :
    describe v (put value description pairs) =
      if value = v then some description else describe v pairs := by
  induction pairs with
  | nil => simp [put, describe]
  | cons pair rest ih =>
    obtain ⟨w, d⟩ := pair
    by_cases h : w = value
    · subst h
      by_cases hv : w = v <;> simp [put, describe, hv]
    · by_cases hv : w = v
      · subst hv
        simp [put, describe, h, Ne.symm h]
      · simp [put, describe, h, hv, ih]

/-- After an insertion the value has the new description and every other value what it had. -/
theorem get?_insert (values : ValueList) (value description v : Text) :
    (values.insert value description).get? v =
      if value = v then some description else values.get? v :=
  describe_put value description v values.pairs

end ValueList

end StyleDocs
