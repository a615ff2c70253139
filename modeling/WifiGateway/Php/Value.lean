/-!
# PHP values and arrays

The part of PHP that a request handler lives on: strings and ordered arrays, as
they arrive in `$_POST`, and what reading, writing and comparing them does. An
array is the list of its entries in order; writing to a key that is there
replaces the value in place, to one that is not appends the entry at the end.

`values_set_head` is what positional arguments depend on: a write leaves the first
entry the first one.
-/

namespace Php

/-- An array key. -/
inductive Key
  | int (i : Int)
  | str (s : String)
  deriving DecidableEq, Repr

/-- A value. -/
inductive Value
  | null
  | str (s : String)
  | arr (entries : List (Key × Value))

/-- The entries of an array, in order. -/
abbrev Entries := List (Key × Value)

/-- `$a[$k]`, if it is there. -/
def get : Entries → Key → Option Value
  | [], _ => none
  | (k', v) :: rest, k => if k' = k then some v else get rest k

/-- `$a[$k] = $v`. -/
def set : Entries → Key → Value → Entries
  | [], k, v => [(k, v)]
  | (k', v') :: rest, k, v => if k' = k then (k', v) :: rest else (k', v') :: set rest k v

/-- The values in order; what a call with the array as its arguments passes. -/
def values (a : Entries) : List Value := a.map Prod.snd

theorem get_set (a : Entries) (k : Key) (v : Value) : get (set a k v) k = some v := by
  induction a with
  | nil => simp [set, get]
  | cons e rest ih =>
    obtain ⟨k', v'⟩ := e
    unfold set
    by_cases hk : k' = k
    · rw [if_pos hk]
      simp [get, hk]
    · rw [if_neg hk]
      simp [get, hk, ih]

/-- The first value after a write: a new one if the first key is written to. -/
theorem values_set_head (k k' : Key) (v v' : Value) (rest : Entries) :
    (values (set ((k', v') :: rest) k v)).head? = some (if k' = k then v else v') := by
  unfold set
  split
  · rfl
  · rfl

/-- `empty($x)`, where `none` is an element that is not there. -/
def empty : Option Value → Bool
  | none | some .null => true
  | some (.str s) => s == "" || s == "0"
  | some (.arr entries) => entries.isEmpty

/-- `isset($x)`. -/
def isset : Option Value → Bool
  | none | some .null => false
  | some (.str _) | some (.arr _) => true

/-- `$x == $s` for a string that is neither numeric nor empty: an equal string is
equal to it, and nothing else is. -/
def equalsText (s : String) : Value → Bool
  | .str s' => s' == s
  | .null | .arr _ => false

/-- `strtolower($s)`. -/
def toLower (s : String) : String := String.ofList (s.toList.map Char.toLower)

/-- The string `$s` after `$s['key'] = $v`: a key that is not a number stands for
the first character, which becomes the first one of the value. -/
def setFirstChar (v s : String) : String := String.ofList (v.toList.take 1 ++ s.toList.drop 1)

/-- `$s['key']` of a string. -/
def firstChar (s : String) : String := String.ofList (s.toList.take 1)

theorem firstChar_length (s : String) : (firstChar s).length ≤ 1 := by
  unfold firstChar
  rw [String.length_ofList, List.length_take]
  exact Nat.min_le_left _ _

end Php
