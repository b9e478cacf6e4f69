import RoomServer.Lib.BigEndian

/-!
# Appending with a limit

An appender appends to the bytes written so far, or fails.  `Writes limit w bs` says that the
appender `w` appends the bytes `bs` and fails exactly when they do not fit below the limit.
Appenders one after the other append their bytes one after the other.
-/

universe u

/-- An appender appends to the bytes so far, or fails. -/
abbrev Appender : Type := Bytes → Option Bytes

/-- The appender appends the bytes `bs` if they fit below the limit, and fails otherwise. -/
def Writes (limit : Nat) (w : Appender) (bs : Bytes) : Prop :=
  ∀ data : Bytes, data.length ≤ limit →
    w data = if data.length + bs.length ≤ limit then some (data ++ bs) else none

namespace Writes

variable {limit : Nat} {w w' : Appender} {bs bs' : Bytes}

theorem nil (limit : Nat) :
  Writes limit some []
  := by
  intro data hdata
  rw [List.length_nil, Nat.add_zero, if_pos hdata, List.append_nil]

/-- One writer after the other. -/
theorem seq (h : Writes limit w bs) (h' : Writes limit w' bs') :
  Writes limit (fun data => w data >>= w') (bs ++ bs')
  := by
  intro data hdata
  dsimp only
  rw [h data hdata]
  split
  · next hfits =>
    rw [Option.bind_eq_bind, Option.bind_some, h' (data ++ bs) (by rwa [List.length_append]),
      List.length_append, List.length_append, List.append_assoc, Nat.add_assoc]
  · next hfits =>
    rw [List.length_append, if_neg (by omega)]
    rfl

/-- The values of a list one after the other. -/
theorem many {α : Type u} {w : α → Appender} {write : α → Bytes}
    (h : ∀ a, Writes limit (w a) (write a)) (as : List α) :
  Writes limit (fun data => as.foldlM (fun data a => w a data) data) (as.flatMap write)
  := by
  induction as with
  | nil => apply nil limit
  | cons a as ih =>
    intro data hdata
    simp only [List.foldlM_cons, List.flatMap_cons]
    apply (h a).seq ih data hdata

/-- An appender that gives up early on bytes that would not fit anyway. -/
theorem guarded {p : Prop} [Decidable p] (h : p → limit < bs.length) (hw : Writes limit w bs) :
  Writes limit (fun data => if p then none else w data) bs
  := by
  intro data hdata
  dsimp only
  split
  · next hp =>
    have := h hp
    rw [if_neg (by omega)]
  · apply hw data hdata

/-- What is written from the start. -/
theorem start (h : Writes limit w bs) :
  w [] = if bs.length ≤ limit then some bs else none
  := by
  rw [h [] (Nat.zero_le limit), List.length_nil, Nat.zero_add, List.nil_append]

end Writes
