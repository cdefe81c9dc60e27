/-!
# Stable sorting

`stableSort cmp xs` takes the elements in turn and moves each one down past the greater ones before
it, so that equal elements keep their order. The result is determined by the sequence and the
answers of `cmp`, whether or not `cmp` is an order.

* `perm_stableSort`: sorting only rearranges;
* `stableSort_of_ne_lt`: without a smaller element there is nothing to rearrange.
-/

namespace EntityGraph

variable {α : Type}

/-- Puts `x` into a list that is sorted from the greatest element down, after those above it. -/
def insertDown (cmp : α → α → Ordering) (x : α) : List α → List α
  | [] => [x]
  | y :: ys => if cmp x y = .lt then y :: insertDown cmp x ys else x :: y :: ys

/-- The elements in increasing order, equal ones in their old order. -/
def stableSort (cmp : α → α → Ordering) (xs : List α) : List α :=
  (xs.foldl (fun sorted x => insertDown cmp x sorted) []).reverse

theorem perm_insertDown (cmp : α → α → Ordering) (x : α) :
    ∀ ys : List α, (insertDown cmp x ys).Perm (x :: ys)
  | [] => .rfl
  | y :: ys => by
    unfold insertDown
    split
    · exact ((perm_insertDown cmp x ys).cons y).trans (.swap x y ys)
    · exact .rfl

theorem perm_foldl_insertDown (cmp : α → α → Ordering) :
    ∀ xs acc : List α, (xs.foldl (fun sorted x => insertDown cmp x sorted) acc).Perm (xs ++ acc)
  | [], _ => .rfl
  | x :: xs, acc =>
    (perm_foldl_insertDown cmp xs _).trans <|
      ((perm_insertDown cmp x acc).append_left xs).trans List.perm_middle

/-- Sorting only rearranges. -/
theorem perm_stableSort (cmp : α → α → Ordering) (xs : List α) : (stableSort cmp xs).Perm xs :=
  (List.reverse_perm _).trans (by simpa using perm_foldl_insertDown cmp xs [])

theorem foldl_insertDown_of_ne_lt {cmp : α → α → Ordering} (h : ∀ a b, cmp a b ≠ .lt) :
    ∀ xs acc : List α, xs.foldl (fun sorted x => insertDown cmp x sorted) acc = xs.reverse ++ acc
  | [], _ => rfl
  | x :: xs, acc => by
    have hx : insertDown cmp x acc = x :: acc := by
      cases acc with
      | nil => rfl
      | cons y ys => rw [insertDown, if_neg (h x y)]
    rw [List.foldl_cons, hx, foldl_insertDown_of_ne_lt h xs, List.reverse_cons, List.append_assoc]
    rfl

/-- Without a smaller element there is nothing to rearrange. -/
theorem stableSort_of_ne_lt {cmp : α → α → Ordering} (h : ∀ a b, cmp a b ≠ .lt) (xs : List α) :
    stableSort cmp xs = xs := by
  rw [stableSort, foldl_insertDown_of_ne_lt h, List.append_nil, List.reverse_reverse]

end EntityGraph
