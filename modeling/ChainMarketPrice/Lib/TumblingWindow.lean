import Mathlib.Data.List.Basic
import Mathlib.Order.Lattice

/-!
# Tumbling windows

Ticks fall into windows, one after the other. A window is over at the first tick that comes its
duration or more after its start; that tick is its last, and the next window starts there.
-/

namespace TumblingWindow

variable {T : Type*}

/-- A window that is over. -/
structure Window (T : Type*) where
  start : T
  inside : List T
  close : T
deriving Repr, DecidableEq

/-- The ticks of a window, with the one that ends it. -/
def Window.ticks (w : Window T) : List T := w.inside ++ [w.close]

lemma Window.length_ticks (w : Window T) : w.ticks.length = w.inside.length + 1 :=
  List.length_append

/-- The start of the window after these. -/
def opened (start : T) (windows : List (Window T)) : T :=
  (windows.getLast?.map Window.close).getD start

@[simp] lemma opened_nil (start : T) : opened start [] = start := rfl

@[simp] lemma opened_append (start : T) (windows : List (Window T)) (w : Window T) :
    opened start (windows ++ [w]) = w.close := by
  rw [opened, List.getLast?_append_cons, List.getLast?_singleton]
  rfl

variable [LinearOrder T] [Add T]

/-- The ticks since the start fall into these windows, and the current one is not over. -/
structure Tumbles (duration start : T) (ticks : List T) (windows : List (Window T))
    (current : List T) : Prop where
  ticks_eq : ticks = windows.flatMap Window.ticks ++ current
  starts : windows.map Window.start ++ [opened start windows] = start :: windows.map Window.close
  inside : ∀ w ∈ windows, ∀ t ∈ w.inside, t < w.start + duration
  close : ∀ w ∈ windows, w.start + duration ≤ w.close
  current_lt : ∀ t ∈ current, t < opened start windows + duration

namespace Tumbles

variable {duration start : T} {ticks current : List T} {windows : List (Window T)}

lemma nil (duration start : T) : Tumbles duration start [] [] [] where
  ticks_eq := rfl
  starts := rfl
  inside := by simp
  close := by simp
  current_lt := by simp

/-- A tick before the current window is over. -/
lemma tick_inside (h : Tumbles duration start ticks windows current) {t : T}
    (ht : t < opened start windows + duration) :
    Tumbles duration start (ticks ++ [t]) windows (current ++ [t]) where
  ticks_eq := by rw [h.ticks_eq, List.append_assoc]
  starts := h.starts
  inside := h.inside
  close := h.close
  current_lt := by
    intro t' ht'
    rcases List.mem_append.mp ht' with ht' | ht'
    · exact h.current_lt t' ht'
    · rw [List.mem_singleton.mp ht']
      exact ht

/-- A tick that ends the current window. -/
lemma tick_close (h : Tumbles duration start ticks windows current) {t : T}
    (ht : opened start windows + duration ≤ t) :
    Tumbles duration start (ticks ++ [t]) (windows ++ [⟨opened start windows, current, t⟩]) [] where
  ticks_eq := by
    rw [h.ticks_eq, List.flatMap_append, List.flatMap_singleton, Window.ticks, List.append_nil,
      List.append_assoc]
  starts := by
    rw [opened_append, List.map_append, List.map_append, List.map_singleton, List.map_singleton,
      h.starts, List.cons_append]
  inside := by
    intro w hw
    rcases List.mem_append.mp hw with hw | hw
    · exact h.inside w hw
    · rw [List.mem_singleton.mp hw]
      exact h.current_lt
  close := by
    intro w hw
    rcases List.mem_append.mp hw with hw | hw
    · exact h.close w hw
    · rw [List.mem_singleton.mp hw]
      exact ht
  current_lt := by simp

/-- The end of a window is one of the ticks. -/
lemma close_mem (h : Tumbles duration start ticks windows current) {w : Window T}
    (hw : w ∈ windows) : w.close ∈ ticks := by
  have hlast : w.close ∈ w.ticks := by simp [Window.ticks]
  rw [h.ticks_eq]
  exact List.mem_append_left current (List.mem_flatMap.mpr ⟨w, hw, hlast⟩)

end Tumbles
end TumblingWindow
