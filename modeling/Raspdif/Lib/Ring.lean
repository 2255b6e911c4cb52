import Mathlib.Data.List.Basic
import Mathlib.Logic.Function.Basic

/-!
# A memory written round and round

Items are written one by one, item number `n` to `place n`, and the places are such
that `capacity` consecutive ones are distinct: the cells of a ring, in whatever shape
the ring is stored.  `Shows` is the invariant of such a memory: the last `capacity`
items are all still there (`Shows.write`), so a stretch of places that lies among them
reads as that stretch of the items (`Shows.map_range`).
-/

namespace Ring

universe u v

variable {κ : Type u} {α : Type v} {place : Nat → κ} {capacity : Nat}

/-- Any `capacity` consecutive places are distinct. -/
def Spread (place : Nat → κ) (capacity : Nat) : Prop :=
  ∀ m n, m < n → n < m + capacity → place m ≠ place n

/-- The memory holds the last `capacity` of the items written to it. -/
def Shows (place : Nat → κ) (capacity : Nat) (items : List α) (memory : κ → α) : Prop :=
  ∀ n x, items[n]? = some x → items.length ≤ n + capacity → memory (place n) = x

theorem Shows.nil (memory : κ → α) : Shows place capacity [] memory := by
  intro n x present
  cases present

/-- Writing the next item where it belongs hides only the oldest one. -/
theorem Shows.write [DecidableEq κ] {items : List α} {memory : κ → α} (x : α)
    (shows_ : Shows place capacity items memory) (spread : Spread place capacity) :
    Shows place capacity (items ++ [x]) (Function.update memory (place items.length) x) := by
  intro n y present recent
  rw [List.length_append, List.length_singleton] at recent
  rcases Nat.lt_trichotomy n items.length with older | rfl | newer
  · rw [List.getElem?_append_left older] at present
    rw [Function.update_of_ne (spread n items.length older (by omega))]
    exact shows_ n y present (by omega)
  · rw [Function.update_self]
    simpa using present
  · rw [List.getElem?_eq_none (by simp; omega)] at present
    cases present

/-- A stretch of places among the last `capacity` reads as that stretch of the items. -/
theorem Shows.map_range {items : List α} {memory : κ → α} {start count : Nat}
    (shows_ : Shows place capacity items memory) (written : start + count ≤ items.length)
    (recent : items.length ≤ start + capacity) :
    (List.range count).map (fun i => memory (place (start + i))) =
      (items.drop start).take count := by
  apply List.ext_getElem?
  intro i
  rw [List.getElem?_map, List.getElem?_take, List.getElem?_drop]
  rcases Nat.lt_or_ge i count with inside | outside
  · have present : items[start + i]? = some items[start + i] := List.getElem?_eq_getElem _
    rw [List.getElem?_range inside, if_pos inside, present, Option.map_some,
      shows_ (start + i) _ present (by omega)]
  · rw [if_neg (by omega), List.getElem?_eq_none (by simpa using outside), Option.map_none]

end Ring
