import Mathlib.Algebra.Ring.Nat
import Mathlib.Data.List.Basic
import Mathlib.Tactic.Tauto
import RoomServer.Lib.Transition

/-!
# Outboxes

An outbox joins the messages of several senders into one stream.  A message waits in a line
while its sender asks for credit, and then for its turn; when its turn comes, it is appended
to a buffer, or dropped if the outbox does not run or the message is empty.  The elements leave
the buffer in pieces of any size.  Credit is repaid when the elements leave the buffer, when a
message is dropped and when the outbox is closed.

Whatever the interleaving, the elements that have left are a prefix of the accepted messages,
the messages of a sender are accepted in the order in which it sent them, and the debt is what
the buffer and the granted messages in the line hold.
-/

universe u v

/-- A message of a sender; the messages are numbered in the order in which they are made. -/
structure Message (τ : Type u) (α : Type v) where
  sender : τ
  number : Nat
  data : List α
  deriving DecidableEq

namespace Message

variable {τ : Type u} {α : Type v}

/-- If the messages have the same sender, the first one was made first. -/
def Before (m m' : Message τ α) : Prop := m.sender = m'.sender → m.number < m'.number

theorem not_before_self (m : Message τ α) : ¬m.Before m :=
  fun h => Nat.lt_irrefl _ (h rfl)

end Message

/-- An outbox has not started, runs, or is closed. -/
inductive Phase where
  | starting
  | running
  | closed
  deriving DecidableEq

/-- The line holds the messages that wait, with whether their credit was granted; `returned`
records the calls of the senders that have returned, with their results. -/
structure Outbox (τ : Type u) (α : Type v) where
  phase : Phase
  debt : Nat
  overdrawn : Bool
  buffer : List α
  sent : List α
  accepted : List (Message τ α)
  waiting : List (Message τ α × Bool)
  made : Nat
  returned : List (Message τ α × Bool)

namespace Outbox

variable {τ : Type u} {α : Type v} {limit : Nat} {outbox outbox' : Outbox τ α}

/-- Repay `n` elements; to repay more than is owed does nothing but leave a mark. -/
def repay (outbox : Outbox τ α) (n : Nat) : Outbox τ α :=
  if outbox.debt < n then
    { outbox with overdrawn := true }
  else
    { outbox with debt := outbox.debt - n }

/-- The steps of an outbox whose debt is limited. -/
inductive Step (limit : Nat) (outbox : Outbox τ α) : Outbox τ α → Prop
  | skip : Step limit outbox outbox
  | start (hphase : outbox.phase = .starting) : Step limit outbox { outbox with phase := .running }
  /-- A call returns false at once. -/
  | reject (m : Message τ α) (hm : m.number = outbox.made) :
      Step limit outbox { outbox with
        made := outbox.made + 1, returned := outbox.returned ++ [(m, false)] }
  /-- A message joins the line, before messages of other senders only. -/
  | call (m : Message τ α) (l r : List (Message τ α × Bool)) (hm : m.number = outbox.made)
      (hline : outbox.waiting = l ++ r) (hr : ∀ x ∈ r, x.1.sender ≠ m.sender) :
      Step limit outbox { outbox with
        made := outbox.made + 1, waiting := l ++ (m, false) :: r }
  | refuse (m : Message τ α) (l r : List (Message τ α × Bool))
      (hline : outbox.waiting = l ++ (m, false) :: r) :
      Step limit outbox { outbox with
        waiting := l ++ r, returned := outbox.returned ++ [(m, false)] }
  | grant (m : Message τ α) (l r : List (Message τ α × Bool))
      (hline : outbox.waiting = l ++ (m, false) :: r)
      (hroom : outbox.debt + m.data.length ≤ limit) :
      Step limit outbox { outbox with
        waiting := l ++ (m, true) :: r, debt := outbox.debt + m.data.length }
  /-- A message overtakes messages of other senders, and its call returns. -/
  | post (m : Message τ α) (l k r : List (Message τ α × Bool))
      (hline : outbox.waiting = l ++ (k ++ (m, true) :: r))
      (hk : ∀ x ∈ k, x.1.sender ≠ m.sender) :
      Step limit outbox { outbox with
        waiting := l ++ (m, true) :: (k ++ r), returned := outbox.returned ++ [(m, true)] }
  | accept (m : Message τ α) (r : List (Message τ α × Bool))
      (hline : outbox.waiting = (m, true) :: r) (hphase : outbox.phase = .running) :
      Step limit outbox { outbox with
        waiting := r
        accepted := outbox.accepted ++ [m]
        buffer := outbox.buffer ++ m.data }
  | drop (m : Message τ α) (r : List (Message τ α × Bool))
      (hline : outbox.waiting = (m, true) :: r)
      (hphase : outbox.phase ≠ .running ∨ m.data = []) :
      Step limit outbox { outbox.repay m.data.length with waiting := r }
  | answer (m : Message τ α) :
      Step limit outbox { outbox with returned := outbox.returned ++ [(m, true)] }
  | send (n : Nat) (hphase : outbox.phase = .running) (hn : n ≤ outbox.buffer.length) :
      Step limit outbox { outbox.repay n with
        buffer := outbox.buffer.drop n, sent := outbox.sent ++ outbox.buffer.take n }
  | close :
      Step limit outbox { outbox.repay outbox.buffer.length with phase := .closed, buffer := [] }

/-! ### The order of the line -/

/-- An element in the middle of a list that is ordered pairwise. -/
theorem pairwise_middle_iff {β : Type u} {R : β → β → Prop} {xs ys : List β} {m : β} :
  (xs ++ m :: ys).Pairwise R
    ↔ (xs ++ ys).Pairwise R ∧ (∀ x ∈ xs, R x m) ∧ ∀ y ∈ ys, R m y
  := by
  simp only [List.pairwise_append, List.pairwise_cons, List.mem_cons, forall_eq_or_imp]
  constructor
  · rintro ⟨hxs, ⟨hm, hys⟩, hcross⟩
    use ⟨hxs, hys, fun x hx => (hcross x hx).2⟩, fun x hx => (hcross x hx).1
  · rintro ⟨⟨hxs, hys, hcross⟩, hbefore, hm⟩
    use hxs, ⟨hm, hys⟩
    intro x hx
    use hbefore x hx, hcross x hx

/-- A line in which the messages of a sender stand in the order in which they were made, none
of those whose calls have returned false. -/
structure Orderly (line : List (Message τ α)) (made : Nat) (returned : List (Message τ α × Bool)) :
    Prop where
  ordered : line.Pairwise Message.Before
  numbered : ∀ m ∈ line, m.number < made
  refused : ∀ m, (m, false) ∈ returned → m.number < made ∧ m ∉ line

section Orderly

variable {line l r : List (Message τ α)} {m : Message τ α} {made : Nat}
variable {returned : List (Message τ α × Bool)}

theorem Orderly.sublist (h : Orderly line made returned) (hl : l.Sublist line) :
  Orderly l made returned
  where
  ordered := h.ordered.sublist hl
  numbered x hx := h.numbered x (hl.subset hx)
  refused x hx := ⟨(h.refused x hx).1, fun hmem => (h.refused x hx).2 (hl.subset hmem)⟩

theorem Orderly.answer (h : Orderly line made returned) (m : Message τ α) :
  Orderly line made (returned ++ [(m, true)])
  where
  ordered := h.ordered
  numbered := h.numbered
  refused x hx := h.refused x (by simpa using hx)

/-- A message with a new number may be refused at once. -/
theorem Orderly.reject (h : Orderly line made returned) (hm : m.number = made) :
  Orderly line (made + 1) (returned ++ [(m, false)])
  where
  ordered := h.ordered
  numbered x hx := Nat.lt_succ_of_lt (h.numbered x hx)
  refused := by
    intro x hx
    rcases List.mem_append.mp hx with hx | hx
    · exact ⟨Nat.lt_succ_of_lt (h.refused x hx).1, (h.refused x hx).2⟩
    · simp only [List.mem_singleton, Prod.mk.injEq, and_true] at hx
      rw [hx, hm]
      use Nat.lt_succ_self _
      intro hmem
      have := h.numbered m hmem
      rw [hm] at this
      apply Nat.lt_irrefl _ this

/-- A message with a new number may join the line before messages of other senders. -/
theorem Orderly.insert (h : Orderly (l ++ r) made returned) (hm : m.number = made)
    (hr : ∀ x ∈ r, x.sender ≠ m.sender) :
  Orderly (l ++ m :: r) (made + 1) returned
  where
  ordered := by
    apply pairwise_middle_iff.mpr
    use h.ordered
    constructor
    · intro x hx _
      rw [hm]
      apply h.numbered x (List.mem_append_left _ hx)
    · intro y hy hsender
      exact absurd hsender.symm (hr y hy)
  numbered := by
    intro x hx
    simp only [List.mem_append, List.mem_cons] at hx
    rcases hx with hx | rfl | hx
    · apply Nat.lt_succ_of_lt (h.numbered x (List.mem_append_left _ hx))
    · rw [hm]
      apply Nat.lt_succ_self _
    · apply Nat.lt_succ_of_lt (h.numbered x (List.mem_append_right _ hx))
  refused := by
    intro x hx
    obtain ⟨hlt, hnotMem⟩ := h.refused x hx
    use Nat.lt_succ_of_lt hlt
    simp only [List.mem_append, List.mem_cons] at hnotMem ⊢
    rintro (hx | rfl | hx)
    · apply hnotMem (.inl hx)
    · rw [hm] at hlt
      apply Nat.lt_irrefl _ hlt
    · apply hnotMem (.inr hx)

/-- A message that is refused leaves the line for good. -/
theorem Orderly.refuse (h : Orderly (l ++ m :: r) made returned) :
  Orderly (l ++ r) made (returned ++ [(m, false)])
  := by
  obtain ⟨-, hbefore, hafter⟩ := pairwise_middle_iff.mp h.ordered
  have hrest := h.sublist ((List.sublist_cons_self m r).append_left l)
  refine { hrest with refused := ?_ }
  intro x hx
  rcases List.mem_append.mp hx with hx | hx
  · apply hrest.refused x hx
  · simp only [List.mem_singleton, Prod.mk.injEq, and_true] at hx
    rw [hx]
    refine ⟨h.numbered m (by simp), ?_⟩
    intro hmem
    rcases List.mem_append.mp hmem with hmem | hmem
    · apply m.not_before_self (hbefore m hmem)
    · apply m.not_before_self (hafter m hmem)

/-- A message may overtake messages of other senders. -/
theorem Orderly.overtake {k : List (Message τ α)}
    (h : Orderly (l ++ (k ++ m :: r)) made returned) (hk : ∀ x ∈ k, x.sender ≠ m.sender) :
  Orderly (l ++ m :: (k ++ r)) made returned
  := by
  have hmem : ∀ x, x ∈ l ++ m :: (k ++ r) ↔ x ∈ l ++ (k ++ m :: r) := by
    intro x
    simp only [List.mem_append, List.mem_cons]
    tauto
  have hordered := h.ordered
  rw [← List.append_assoc, pairwise_middle_iff] at hordered
  obtain ⟨hrest, hbefore, hafter⟩ := hordered
  constructor
  · rw [pairwise_middle_iff, ← List.append_assoc]
    use hrest
    constructor
    · intro x hx
      apply hbefore x (List.mem_append_left _ hx)
    · intro y hy
      rcases List.mem_append.mp hy with hy | hy
      · intro hsender
        exact absurd hsender.symm (hk y hy)
      · apply hafter y hy
  · intro x hx
    apply h.numbered x ((hmem x).mp hx)
  · intro x hx
    rw [hmem]
    apply h.refused x hx

end Orderly

/-! ### The invariant -/

/-- What the granted messages of a line hold. -/
def granted (line : List (Message τ α × Bool)) : Nat :=
  (line.map fun x => if x.2 then x.1.data.length else 0).sum

@[simp]
theorem granted_nil : granted ([] : List (Message τ α × Bool)) = 0 := rfl

@[simp]
theorem granted_cons (m : Message τ α) (b : Bool) (line : List (Message τ α × Bool)) :
  granted ((m, b) :: line) = (if b then m.data.length else 0) + granted line
  := rfl

@[simp]
theorem granted_append (l r : List (Message τ α × Bool)) :
  granted (l ++ r) = granted l + granted r
  := by
  simp only [granted, List.map_append, List.sum_append]

/-- The accepted messages, then those that wait. -/
def line (outbox : Outbox τ α) : List (Message τ α) :=
  outbox.accepted ++ outbox.waiting.map Prod.fst

structure Inv (limit : Nat) (outbox : Outbox τ α) : Prop where
  debt_eq : outbox.debt = outbox.buffer.length + granted outbox.waiting
  debt_le : outbox.debt ≤ limit
  sound : outbox.overdrawn = false
  buffer_eq : outbox.phase ≠ .running → outbox.buffer = []
  fresh : outbox.phase = .starting → outbox.sent = [] ∧ outbox.accepted = []
  stream : outbox.phase = .running →
    outbox.sent ++ outbox.buffer = outbox.accepted.flatMap Message.data
  sent_prefix : outbox.sent <+: outbox.accepted.flatMap Message.data
  orderly : Orderly outbox.line outbox.made outbox.returned

/-- No message is accepted twice. -/
theorem Inv.nodup (h : Inv limit outbox) : outbox.accepted.Nodup := by
  have hordered := (List.pairwise_append.mp h.orderly.ordered).1
  apply hordered.imp
  intro m m' hbefore heq
  rw [heq] at hbefore
  apply m'.not_before_self hbefore

/-- To repay what is owed leaves no mark. -/
theorem repay_of_le {n : Nat} (h : n ≤ outbox.debt) :
  outbox.repay n = { outbox with debt := outbox.debt - n }
  := if_neg (Nat.not_lt.mpr h)

theorem repay_phase (outbox : Outbox τ α) (phase : Phase) (n : Nat) :
  { outbox with phase }.repay n = { outbox.repay n with phase }
  := by
  rw [repay, repay]
  split <;> rfl

section Steps

variable {m : Message τ α} {l k r : List (Message τ α × Bool)}

theorem Inv.start (h : Inv limit outbox) (hphase : outbox.phase = .starting) :
  Inv limit { outbox with phase := .running }
  := by
  obtain ⟨hsent, haccepted⟩ := h.fresh hphase
  refine { h with buffer_eq := ?_, fresh := ?_, stream := ?_ }
  · intro hne
    exact absurd rfl hne
  · rintro ⟨⟩
  · intro _
    rw [hsent, haccepted, h.buffer_eq (by rw [hphase]; decide)]
    rfl

theorem Inv.call (h : Inv limit outbox) (hm : m.number = outbox.made)
    (hline : outbox.waiting = l ++ r) (hr : ∀ x ∈ r, x.1.sender ≠ m.sender) :
  Inv limit { outbox with made := outbox.made + 1, waiting := l ++ (m, false) :: r }
  := by
  refine { h with debt_eq := ?_, orderly := ?_ }
  · have := h.debt_eq
    simp only [hline, granted_append, granted_cons, Bool.false_eq_true, if_false] at this ⊢
    omega
  · have := h.orderly
    simp only [line, hline, List.map_append, List.map_cons, ← List.append_assoc] at this ⊢
    apply this.insert hm
    intro x hx
    obtain ⟨y, hy, rfl⟩ := List.mem_map.mp hx
    apply hr y hy

theorem Inv.refuse (h : Inv limit outbox) (hline : outbox.waiting = l ++ (m, false) :: r) :
  Inv limit { outbox with
    waiting := l ++ r, returned := outbox.returned ++ [(m, false)] }
  := by
  refine { h with debt_eq := ?_, orderly := ?_ }
  · have := h.debt_eq
    simp only [hline, granted_append, granted_cons, Bool.false_eq_true, if_false] at this ⊢
    omega
  · have := h.orderly
    simp only [line, hline, List.map_append, List.map_cons, ← List.append_assoc] at this ⊢
    apply this.refuse

theorem Inv.grant (h : Inv limit outbox) (hline : outbox.waiting = l ++ (m, false) :: r)
    (hroom : outbox.debt + m.data.length ≤ limit) :
  Inv limit { outbox with
    waiting := l ++ (m, true) :: r, debt := outbox.debt + m.data.length }
  := by
  refine { h with debt_eq := ?_, debt_le := hroom, orderly := ?_ }
  · have := h.debt_eq
    simp only [hline, granted_append, granted_cons, Bool.false_eq_true, if_false, if_true]
      at this ⊢
    omega
  · have := h.orderly
    simpa only [line, hline, List.map_append, List.map_cons] using this

theorem Inv.post (h : Inv limit outbox) (hline : outbox.waiting = l ++ (k ++ (m, true) :: r))
    (hk : ∀ x ∈ k, x.1.sender ≠ m.sender) :
  Inv limit { outbox with
    waiting := l ++ (m, true) :: (k ++ r), returned := outbox.returned ++ [(m, true)] }
  := by
  refine { h with debt_eq := ?_, orderly := ?_ }
  · have := h.debt_eq
    simp only [hline, granted_append, granted_cons, if_true] at this ⊢
    omega
  · have := h.orderly
    simp only [line, hline, List.map_append, List.map_cons, ← List.append_assoc] at this ⊢
    rw [List.append_assoc] at this
    apply Orderly.answer
    apply this.overtake
    intro x hx
    obtain ⟨y, hy, rfl⟩ := List.mem_map.mp hx
    apply hk y hy

theorem Inv.accept (h : Inv limit outbox) (hline : outbox.waiting = (m, true) :: r)
    (hphase : outbox.phase = .running) :
  Inv limit { outbox with
    waiting := r, accepted := outbox.accepted ++ [m], buffer := outbox.buffer ++ m.data }
  := by
  have hflat : (outbox.accepted ++ [m]).flatMap Message.data
      = outbox.accepted.flatMap Message.data ++ m.data := by
    simp
  refine { h with
    debt_eq := ?_, buffer_eq := ?_, fresh := ?_, stream := ?_, sent_prefix := ?_, orderly := ?_ }
  · have := h.debt_eq
    simp only [hline, granted_cons, if_true, List.length_append] at this ⊢
    omega
  · intro hne
    exact absurd hphase hne
  · intro hstarting
    rw [hphase] at hstarting
    cases hstarting
  · intro _
    rw [hflat, ← h.stream hphase, List.append_assoc]
  · rw [hflat]
    apply h.sent_prefix.trans (List.prefix_append _ _)
  · have := h.orderly
    simpa only [line, hline, List.map_cons, List.append_assoc, List.singleton_append] using this

theorem Inv.drop (h : Inv limit outbox) (hline : outbox.waiting = (m, true) :: r) :
  Inv limit { outbox.repay m.data.length with waiting := r }
  := by
  have hdebt := h.debt_eq
  rw [hline, granted_cons, if_pos rfl] at hdebt
  rw [repay_of_le (by omega)]
  refine { h with debt_eq := ?_, debt_le := ?_, orderly := h.orderly.sublist ?_ }
  · dsimp only
    omega
  · apply Nat.le_trans (Nat.sub_le _ _) h.debt_le
  · simp [line, hline]

theorem Inv.send (h : Inv limit outbox) {n : Nat} (hphase : outbox.phase = .running)
    (hn : n ≤ outbox.buffer.length) :
  Inv limit { outbox.repay n with
    buffer := outbox.buffer.drop n, sent := outbox.sent ++ outbox.buffer.take n }
  := by
  have hdebt := h.debt_eq
  have hstream := h.stream hphase
  have hsplit : outbox.sent ++ outbox.buffer.take n ++ outbox.buffer.drop n
      = outbox.sent ++ outbox.buffer := by
    rw [List.append_assoc, List.take_append_drop]
  rw [repay_of_le (by omega)]
  refine { h with
    debt_eq := ?_, debt_le := ?_, buffer_eq := ?_, fresh := ?_, stream := ?_, sent_prefix := ?_ }
  · rw [List.length_drop]
    dsimp only
    omega
  · apply Nat.le_trans (Nat.sub_le _ _) h.debt_le
  · intro hne
    exact absurd hphase hne
  · intro hstarting
    rw [hphase] at hstarting
    cases hstarting
  · intro _
    rw [hsplit]
    exact hstream
  · rw [← hstream, ← hsplit]
    apply List.prefix_append _ _

theorem Inv.close (h : Inv limit outbox) :
  Inv limit { outbox.repay outbox.buffer.length with phase := .closed, buffer := [] }
  := by
  have hdebt := h.debt_eq
  rw [repay_of_le (by omega)]
  refine { h with
    debt_eq := ?_, debt_le := ?_, buffer_eq := fun _ => rfl, fresh := ?_, stream := ?_ }
  · dsimp only [List.length_nil]
    omega
  · apply Nat.le_trans (Nat.sub_le _ _) h.debt_le
  · rintro ⟨⟩
  · rintro ⟨⟩

end Steps

/-- Every step keeps the invariant. -/
theorem Step.inv (h : Inv limit outbox) (hstep : Step limit outbox outbox') :
  Inv limit outbox'
  := by
  cases hstep with
  | skip => exact h
  | start hphase => apply h.start hphase
  | reject m hm => exact { h with orderly := h.orderly.reject hm }
  | call m l r hm hline hr => apply h.call hm hline hr
  | refuse m l r hline => apply h.refuse hline
  | grant m l r hline hroom => apply h.grant hline hroom
  | post m l k r hline hk => apply h.post hline hk
  | accept m r hline hphase => apply h.accept hline hphase
  | drop m r hline _ => apply h.drop hline
  | answer m => exact { h with orderly := h.orderly.answer m }
  | send n hphase hn => apply h.send hphase hn
  | close => apply h.close

/-- Nothing leaves an outbox that is closed, and no message is accepted. -/
theorem Step.closed (hstep : Step limit outbox outbox') (hphase : outbox.phase = .closed) :
  outbox'.phase = .closed ∧ outbox'.sent = outbox.sent
    ∧ outbox'.accepted = outbox.accepted
  := by
  cases hstep with
  | start h =>
    rw [hphase] at h
    cases h
  | accept m r hline h =>
    rw [hphase] at h
    cases h
  | drop m r hline h =>
    rw [repay]
    split <;> exact ⟨hphase, rfl, rfl⟩
  | send n h hn =>
    rw [hphase] at h
    cases h
  | close =>
    rw [repay]
    split <;> exact ⟨rfl, rfl, rfl⟩
  | _ => exact ⟨hphase, rfl, rfl⟩

/-! ### Runs -/

/-- An outbox before anything happens. -/
def Initial (outbox : Outbox τ α) : Prop :=
  outbox = ⟨.starting, 0, false, [], [], [], [], 0, []⟩

def system (τ : Type u) (α : Type v) (limit : Nat) : System (Outbox τ α) Unit where
  Initial := Initial
  Step outbox _ outbox' := Step limit outbox outbox'

theorem inv_of_initial (h : outbox.Initial) : Inv limit outbox := by
  cases h
  refine ⟨rfl, Nat.zero_le _, rfl, fun _ => rfl, fun _ => ⟨rfl, rfl⟩, ?_, List.prefix_rfl,
    .nil, ?_, ?_⟩
  · rintro ⟨⟩
  · rintro m ⟨⟩
  · rintro m ⟨⟩

theorem inv_of_reachable (h : (system τ α limit).Reachable outbox) :
  Inv limit outbox
  := by
  apply h.invariant
  · intro s hs
    apply inv_of_initial hs
  · intro s _ s' hs _ hstep
    apply hstep.inv hs

/-- What a closed outbox has sent and accepted is final. -/
theorem closed_of_leads (hphase : outbox.phase = .closed)
    (h : (system τ α limit).Leads outbox outbox') :
  outbox'.phase = .closed ∧ outbox'.sent = outbox.sent ∧ outbox'.accepted = outbox.accepted
  := by
  apply h.preserves (I := fun later =>
    later.phase = .closed ∧ later.sent = outbox.sent ∧ later.accepted = outbox.accepted)
  · intro s _ s' ⟨hclosed, hsent, haccepted⟩ hstep
    obtain ⟨hclosed', hsent', haccepted'⟩ := Step.closed hstep hclosed
    exact ⟨hclosed', hsent'.trans hsent, haccepted'.trans haccepted⟩
  · exact ⟨hphase, rfl, rfl⟩

end Outbox
