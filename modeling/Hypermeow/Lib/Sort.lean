/-
Byte strings in their usual order.

Byte strings are compared byte by byte, and a string comes after its own beginnings. `sortBytes` puts a list of them in
that order. The order is total and antisymmetric, so that the sorted list is a function of the strings and of how often
each of them occurs: `sortBytes_eq_of_perm`. A program that collects strings in any order and then sorts them therefore
gets one result.
-/
import Hypermeow.Lib.Slice
import Mathlib.Data.List.Sort

namespace Hypermeow.Lib

/-- the strings in increasing order -/
def sortBytes (l : List Bytes) : List Bytes := l.insertionSort (· ≤ ·)

theorem sortBytes_perm (l : List Bytes) : (sortBytes l).Perm l := List.perm_insertionSort _ l

theorem sortBytes_pairwise (l : List Bytes) : (sortBytes l).Pairwise (· ≤ ·) := List.pairwise_insertionSort _ l

/-- **Sorting forgets the order.** Two lists of the same strings are sorted to the same list. -/
theorem sortBytes_eq_of_perm {l l' : List Bytes} (h : l.Perm l') : sortBytes l = sortBytes l' := by
  have hperm : (sortBytes l).Perm (sortBytes l') := (sortBytes_perm l).trans (h.trans (sortBytes_perm l').symm)
  exact hperm.eq_of_pairwise' (sortBytes_pairwise l) (sortBytes_pairwise l')

end Hypermeow.Lib
