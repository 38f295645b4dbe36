import TieredStore.Bytes.Word
import TieredStore.IoError

/-!
# Byte streams

The two ends of a byte stream.  What arrives comes in pieces, which need not agree with what was
sent or with what is asked for; `Inflow.take` gathers a given number of bytes from as many pieces as
it takes, and only their bytes in a row matter (`gather_flatten`).  What is written is taken up to
the room that there is.
-/

namespace TieredStore.Wire

/-! ## Reading -/

/-- Takes a number of bytes from pieces, if they hold that many. -/
def gather : Nat → List Bytes → Option (Bytes × List Bytes)
  | 0, pieces => some ([], pieces)
  | _ + 1, [] => none
  | n + 1, piece :: pieces =>
    match Bytes.split? (n + 1) piece with
    | some (front, rest) => some (front, rest :: pieces)
    | none => (gather (n + 1 - piece.length) pieces).map fun (more, rest) => (piece ++ more, rest)

/-- The incoming side of a stream: pieces in the order of their arrival, and what a read reports
that finds too few bytes in them. -/
structure Inflow where
  pieces : List Bytes
  stop : IoError
  deriving DecidableEq, Repr

namespace Inflow

def bytes (inflow : Inflow) : Bytes :=
  inflow.pieces.flatten

/-- Reads a number of bytes.  A read that finds too few has taken all there were. -/
def take (n : Nat) (inflow : Inflow) : Except IoError Bytes × Inflow :=
  match gather n inflow.pieces with
  | none => (.error inflow.stop, ⟨[], inflow.stop⟩)
  | some (bs, rest) => (.ok bs, ⟨rest, inflow.stop⟩)

end Inflow

/-- How bytes are cut into pieces makes no difference to what is taken and what is left. -/
theorem gather_flatten (n : Nat) (pieces : List Bytes) :
    (gather n pieces).map (Prod.map id List.flatten) = Bytes.split? n pieces.flatten := by
  induction pieces generalizing n with
  | nil => cases n <;> rfl
  | cons piece pieces ih =>
    cases n with
    | zero => simp [gather, Bytes.split?]
    | succ n =>
      rw [gather, List.flatten_cons]
      split
      · next front rest h =>
        obtain ⟨rfl, hlen⟩ := Bytes.split?_eq_some_iff.1 h
        rw [List.append_assoc, ← hlen, Bytes.split?_append]
        rfl
      · next h =>
        have hle := Nat.le_of_lt (Bytes.split?_eq_none_iff.1 h)
        rw [Bytes.split?_append_of_le hle, ← ih, Option.map_map, Option.map_map]
        rfl

theorem Inflow.take_of_split?_eq_some {inflow : Inflow} {n : Nat} {front rest : Bytes}
    (h : Bytes.split? n inflow.bytes = some (front, rest)) :
    (inflow.take n).1 = .ok front ∧ (inflow.take n).2.bytes = rest
      ∧ (inflow.take n).2.stop = inflow.stop := by
  rw [bytes, ← gather_flatten, Option.map_eq_some_iff] at h
  obtain ⟨⟨bs, pieces⟩, hgather, heq⟩ := h
  obtain ⟨rfl, rfl⟩ := Prod.mk.inj heq
  rw [take, hgather]
  exact ⟨rfl, rfl, rfl⟩

theorem Inflow.take_of_split?_eq_none {inflow : Inflow} {n : Nat}
    (h : Bytes.split? n inflow.bytes = none) :
    inflow.take n = (.error inflow.stop, ⟨[], inflow.stop⟩) := by
  rw [bytes, ← gather_flatten, Option.map_eq_none_iff] at h
  rw [take, h]

/-- Cuts bytes into pieces of a given length, the last one perhaps shorter. -/
def cut (length : Nat) (bs : Bytes) : List Bytes :=
  if _h : length = 0 ∨ bs = [] then
    if bs = [] then [] else [bs]
  else
    bs.take length :: cut length (bs.drop length)
termination_by bs.length
decreasing_by
  have hpos := List.length_pos_iff.2 (not_or.1 _h).2
  have hcut := (not_or.1 _h).1
  rw [List.length_drop]
  omega

theorem flatten_cut (length : Nat) (bs : Bytes) : (cut length bs).flatten = bs := by
  fun_induction cut length bs with
  | case1 => rfl
  | case2 bs h h' => simp
  | case3 bs h ih => rw [List.flatten_cons, ih, List.take_append_drop]

/-! ## Writing -/

/-- The outgoing side of a stream: the bytes written so far, and the room for more if it is
limited. -/
structure Outflow where
  written : Bytes
  room : Option Nat
  deriving DecidableEq, Repr

/-- Writes all the bytes, or as many as there is room for. -/
def Outflow.write (bs : Bytes) (outflow : Outflow) : Except IoError Unit × Outflow :=
  match outflow.room with
  | none => (.ok (), ⟨outflow.written ++ bs, none⟩)
  | some room =>
    if bs.length ≤ room then
      (.ok (), ⟨outflow.written ++ bs, some (room - bs.length)⟩)
    else
      (.error .shortWrite, ⟨outflow.written ++ bs.take room, some 0⟩)

end TieredStore.Wire
