/-
Module: RentMate.Machine.Framing
Purpose: Cutting a stream into frames whose beginning declares their length, whatever the
  items and the declaration are. The cut does not depend on where the stream was interrupted.
Trusted boundary: human-reviewed spec
Main exports: Framing, Framing.split, split_append, split_join, split_flatten
-/
import Mathlib.Data.List.Basic
import Mathlib.Tactic.Common

namespace RentMate.Machine

/-- A way to tell the length of the frame at the front of a stream. -/
structure Framing (α : Type) where
  /-- The length of the frame at the front, once enough of it is there. -/
  declared : List α → Option Nat
  positive : ∀ {items : List α} {size : Nat}, declared items = some size → 0 < size
  stable : ∀ {items : List α} {size : Nat} (more : List α),
    declared items = some size → declared (items ++ more) = some size

namespace Framing

variable {α : Type} (framing : Framing α)

/-- Nothing at the front of the stream is a whole frame yet. -/
def Incomplete (stream : List α) : Prop :=
  ∀ size, framing.declared stream = some size → stream.length < size

/-- The list is one whole frame. -/
def IsFrame (frame : List α) : Prop :=
  framing.declared frame = some frame.length

/-- The whole frames of a stream in order, and the items behind the last of them. The fuel
bounds the number of frames. -/
def splitWithin : Nat → List α → List (List α) × List α
  | 0, stream => ([], stream)
  | fuel + 1, stream =>
      match framing.declared stream with
      | none => ([], stream)
      | some size =>
          if size ≤ stream.length then
            let behind := splitWithin fuel (stream.drop size)
            (stream.take size :: behind.1, behind.2)
          else ([], stream)

/-- The cut of a stream: it has no more frames than items. -/
def split (stream : List α) : List (List α) × List α :=
  framing.splitWithin stream.length stream

variable {framing} {frame stream rest : List α} {size : Nat}

/-- Nothing is not yet a frame. -/
theorem incomplete_nil : framing.Incomplete [] := fun _ declares => framing.positive declares

/-- An incomplete stream is left as it is. -/
theorem splitWithin_of_incomplete (incomplete : framing.Incomplete stream) (fuel : Nat) :
    framing.splitWithin fuel stream = ([], stream) := by
  cases fuel with
  | zero => rfl
  | succ fuel =>
      rw [splitWithin]
      split
      · rfl
      · rename_i size declares
        rw [if_neg (Nat.not_le_of_lt (incomplete size declares))]

/-- More fuel than items changes nothing. -/
theorem splitWithin_enough {fuel : Nat} (enough : stream.length ≤ fuel) :
    framing.splitWithin fuel stream = framing.split stream := by
  suffices agree : ∀ (one other : Nat) (stream : List α), stream.length ≤ one →
      stream.length ≤ other →
      framing.splitWithin one stream = framing.splitWithin other stream from
    agree fuel stream.length stream enough (Nat.le_refl _)
  intro one
  induction one with
  | zero =>
      intro other stream short _
      obtain rfl := List.length_eq_zero_iff.mp (Nat.le_zero.mp short)
      rw [splitWithin_of_incomplete incomplete_nil, splitWithin_of_incomplete incomplete_nil]
  | succ one ih =>
      intro other stream shortOne shortOther
      cases other with
      | zero =>
          obtain rfl := List.length_eq_zero_iff.mp (Nat.le_zero.mp shortOther)
          rw [splitWithin_of_incomplete incomplete_nil, splitWithin_of_incomplete incomplete_nil]
      | succ other =>
          simp only [splitWithin]
          split
          · rfl
          · rename_i size declares
            have nonempty := framing.positive declares
            have dropped : (stream.drop size).length = stream.length - size := List.length_drop
            split
            · rw [ih other (stream.drop size) (by omega) (by omega)]
            · rfl

/-- An incomplete stream has no frame. -/
theorem split_of_incomplete (incomplete : framing.Incomplete stream) :
    framing.split stream = ([], stream) :=
  splitWithin_of_incomplete incomplete stream.length

/-- A complete first frame is split off, and the rest is split in the same way. -/
theorem split_of_declared (declares : framing.declared stream = some size)
    (fits : size ≤ stream.length) :
    framing.split stream =
      (stream.take size :: (framing.split (stream.drop size)).1,
        (framing.split (stream.drop size)).2) := by
  have nonempty := framing.positive declares
  obtain ⟨fuel, items⟩ : ∃ fuel, stream.length = fuel + 1 := ⟨stream.length - 1, by omega⟩
  have behind : (stream.drop size).length ≤ fuel := by
    rw [List.length_drop]
    omega
  rw [split, items, splitWithin]
  simp only [declares, if_pos fits, splitWithin_enough behind]

/-- A frame in front of a stream is split off first. -/
theorem split_frame (isFrame : framing.IsFrame frame) (rest : List α) :
    framing.split (frame ++ rest) =
      (frame :: (framing.split rest).1, (framing.split rest).2) := by
  rw [split_of_declared (framing.stable rest isFrame) (by simp)]
  simp

@[simp] theorem split_nil : framing.split [] = ([], []) :=
  split_of_incomplete incomplete_nil

/-- A frame alone leaves nothing. -/
theorem split_single (isFrame : framing.IsFrame frame) : framing.split frame = ([frame], []) := by
  simpa using split_frame isFrame []

variable (framing) in
/-- A stream that is no whole frame yet, or one that starts with as many items as it
declares. -/
theorem incomplete_or_declared (stream : List α) :
    framing.Incomplete stream ∨
      ∃ size, framing.declared stream = some size ∧ size ≤ stream.length := by
  by_cases some : ∃ size, framing.declared stream = some size ∧ size ≤ stream.length
  · exact Or.inr some
  · left
    intro size declares
    by_contra fits
    exact some ⟨size, declares, by omega⟩

variable (framing) in
/-- Induction over the frames of a stream. -/
theorem split_induction {motive : List α → Prop}
    (incomplete : ∀ stream, framing.Incomplete stream → motive stream)
    (declared : ∀ stream size, framing.declared stream = some size → size ≤ stream.length →
      motive (stream.drop size) → motive stream)
    (stream : List α) : motive stream := by
  induction count : stream.length using Nat.strongRecOn generalizing stream with
  | ind count ih =>
      rcases incomplete_or_declared framing stream with short | ⟨size, declares, fits⟩
      · exact incomplete stream short
      · have nonempty := framing.positive declares
        refine declared stream size declares fits (ih (stream.drop size).length ?_ _ rfl)
        simp only [List.length_drop]
        omega

/-- What follows the last whole frame is not a whole frame. -/
theorem split_rest_incomplete (stream : List α) :
    framing.Incomplete (framing.split stream).2 := by
  induction stream using split_induction framing with
  | incomplete stream short =>
      rw [split_of_incomplete short]
      exact short
  | declared stream size declares fits ih =>
      rw [split_of_declared declares fits]
      exact ih

variable (framing) in
/-- Cutting can be interrupted anywhere and taken up again with what was left over. -/
theorem split_append (stream more : List α) :
    framing.split (stream ++ more) =
      ((framing.split stream).1 ++ (framing.split ((framing.split stream).2 ++ more)).1,
        (framing.split ((framing.split stream).2 ++ more)).2) := by
  induction stream using split_induction framing with
  | incomplete stream short => simp [split_of_incomplete short]
  | declared stream size declares fits ih =>
      have fitsMore : size ≤ (stream ++ more).length := by
        simp only [List.length_append]
        omega
      rw [split_of_declared declares fits,
        split_of_declared (framing.stable more declares) fitsMore,
        List.take_append_of_le_length fits, List.drop_append_of_le_length fits, ih]
      simp

/-- The frames and what follows the last of them make up the stream. -/
theorem split_join (stream : List α) :
    (framing.split stream).1.flatten ++ (framing.split stream).2 = stream := by
  induction stream using split_induction framing with
  | incomplete stream short => simp [split_of_incomplete short]
  | declared stream size declares fits ih =>
      rw [split_of_declared declares fits, List.flatten_cons, List.append_assoc, ih,
        List.take_append_drop]

/-- More of the stream adds frames behind those that are there. -/
theorem split_prefix (stream more : List α) :
    (framing.split stream).1 <+: (framing.split (stream ++ more)).1 := by
  rw [split_append]
  exact List.prefix_append _ _

/-- Whole frames one after another are cut into just these frames. -/
theorem split_flatten {frames : List (List α)} (whole : ∀ frame ∈ frames, framing.IsFrame frame)
    (rest : List α) :
    framing.split (frames.flatten ++ rest) =
      (frames ++ (framing.split rest).1, (framing.split rest).2) := by
  induction frames with
  | nil => simp
  | cons frame frames ih =>
      have isFrame := whole frame (List.mem_cons_self)
      have others : ∀ other ∈ frames, framing.IsFrame other :=
        fun other mem => whole other (List.mem_cons_of_mem _ mem)
      rw [List.flatten_cons, List.append_assoc, split_frame isFrame, ih others]
      simp

end Framing

end RentMate.Machine
