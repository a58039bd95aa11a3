import ScriptAudit.Number.Basic

/-!
# Ranking by a number

`Ranking.descending` orders items by a number, the greatest first, and keeps the order of items
with equal numbers. A number that is not comparable stays about where it is: each item is put into
its place among those before it, and the place is found by halving.
-/

namespace ScriptAudit.Ranking

variable {α : Type}

/-- The place among the items from `low` up to `high` behind all that `item` does not precede,
found by halving. -/
def place (precedes : α → α → Bool) (items : Array α) (item : α) (low high : Nat) : Nat :=
  if low < high then
    let middle := low + (high - low) / 2
    match items[middle]? with
    | some other =>
      if precedes item other then place precedes items item low middle
      else place precedes items item (middle + 1) high
    | none => low
  else low
termination_by high - low
decreasing_by all_goals omega

/-- Puts an item into its place among ordered items. -/
def insert (precedes : α → α → Bool) (items : List α) (item : α) : List α :=
  let n := place precedes items.toArray item 0 items.length
  items.take n ++ item :: items.drop n

/-- The number of items at the front each of which satisfies `p` after the one before it. -/
def chain (p : α → α → Bool) : List α → Nat
  | [] => 0
  | [_] => 1
  | a :: b :: rest => if p a b then chain p (b :: rest) + 1 else 1

/-- The items at the front that are in order, or in opposite order, and the number of them. -/
def front (precedes : α → α → Bool) (items : List α) : List α × Nat :=
  let falling := chain (fun a b => precedes b a) items
  if falling > 1 then ((items.take falling).reverse, falling)
  else
    let rising := chain (fun a b => !precedes b a) items
    (items.take rising, rising)

/-- Orders items; those that do not precede one another keep their order. -/
def ascending (precedes : α → α → Bool) (items : List α) : List α :=
  let (start, n) := front precedes items
  (items.drop n).foldl (insert precedes) start

/-- Orders items by a number, the greatest first. -/
def descending (key : α → Number) (items : List α) : List α :=
  (ascending (fun a b => (key a).less (key b)) items.reverse).reverse

end ScriptAudit.Ranking
