import Mathlib.Data.List.Basic
import Mathlib.Tactic.Common

/-!
# Lib.Table — tables of values under keys

The first entry of a key counts.  `put` replaces a value that is there; it neither adds a key nor moves one.
-/

namespace Lib

namespace Table

variable {κ ν : Type} [DecidableEq κ]

def find (k : κ) : List (κ × ν) → Option ν
  | [] => none
  | (k', v) :: xs => if k' = k then some v else find k xs

/-- The value of the first entry of `k` is replaced. -/
def put (k : κ) (v : ν) : List (κ × ν) → List (κ × ν)
  | [] => []
  | (k', v') :: xs => if k' = k then (k', v) :: xs else (k', v') :: put k v xs

end Table

end Lib
