import RoomServer.Lib.BigEndian
import Mathlib.Data.List.Basic

/-!
# Formats

A reader takes a value off the front of a sequence of bytes, or fails.  `Format P write
read` says that `read` and `write` are inverse to each other on the values that satisfy `P`:
what is written is read back, with the bytes behind it left over, and what is read was
written at the front.  A format is unambiguous: no two values are written alike, and no value
is written as the beginning of another.
-/

universe u

/-- A reader takes a value off the front of the bytes, leaving the rest, or fails. -/
abbrev Reader (α : Type u) : Type u := Bytes → Option (α × Bytes)

/-- `read` and `write` are inverse to each other on the values that satisfy `P`. -/
structure Format {α : Type u} (P : α → Prop) (write : α → Bytes) (read : Reader α) : Prop where
  read_write : ∀ {a : α} (rest : Bytes), P a → read (write a ++ rest) = some (a, rest)
  write_read : ∀ {bs : Bytes} {a : α} {rest : Bytes},
    read bs = some (a, rest) → P a ∧ bs = write a ++ rest

namespace Format

variable {α β : Type u} {P : α → Prop} {write : α → Bytes} {read : Reader α}

/-- Exactly the valid values are read, and only from what they are written as. -/
theorem read_eq_some_iff (F : Format P write read) {bs : Bytes} {a : α} {rest : Bytes} :
  read bs = some (a, rest) ↔ P a ∧ bs = write a ++ rest
  := by
  constructor
  · apply F.write_read
  · rintro ⟨hP, rfl⟩
    apply F.read_write rest hP

/-- A format from what exactly is read. -/
theorem of_iff (h : ∀ bs a rest, read bs = some (a, rest) ↔ P a ∧ bs = write a ++ rest) :
  Format P write read
  := by
  constructor
  · intro a rest hP
    apply (h _ a rest).mpr ⟨hP, rfl⟩
  · intro bs a rest hread
    apply (h bs a rest).mp hread

/-- A value and what follows it are determined by the bytes. -/
theorem write_injective (F : Format P write read) {a b : α} {r s : Bytes} (ha : P a) (hb : P b)
    (h : write a ++ r = write b ++ s) :
  a = b ∧ r = s
  := by
  have heq := F.read_write r ha
  rw [h, F.read_write s hb, Option.some.injEq, Prod.mk.injEq] at heq
  use heq.1.symm, heq.2.symm

/-! ### Blocks of bytes and numbers -/

/-- Take the next `n` bytes. -/
def takeBytes (n : Nat) : Reader Bytes :=
  fun bs => if bs.length < n then none else some (bs.take n, bs.drop n)

theorem bytes (n : Nat) :
  Format (fun bs : Bytes => bs.length = n) id (takeBytes n)
  := by
  constructor
  · rintro bs rest rfl
    simp [takeBytes]
  · intro bs a rest h
    rw [takeBytes] at h
    split at h
    · cases h
    · next hn =>
      rw [Option.some.injEq, Prod.mk.injEq] at h
      obtain ⟨rfl, rfl⟩ := h
      constructor
      · rw [List.length_take]
        omega
      · symm
        apply List.take_append_drop

/-- Take the next `k` bytes as a big-endian number. -/
def takeNumber (k : Nat) : Reader Nat :=
  fun bs => (takeBytes k bs).map (fun p => (BigEndian.value p.1, p.2))

theorem number (k : Nat) :
  Format (fun n => n < 256 ^ k) (BigEndian.digits k) (takeNumber k)
  := by
  constructor
  · intro n rest hn
    have h : takeBytes k (BigEndian.digits k n ++ rest) = some (BigEndian.digits k n, rest) :=
      (bytes k).read_write rest (BigEndian.length_digits k n)
    rw [takeNumber, h, Option.map_some, BigEndian.value_digits_of_lt hn]
  · intro bs n rest h
    rw [takeNumber, Option.map_eq_some_iff] at h
    obtain ⟨⟨ds, rest'⟩, hds, heq⟩ := h
    obtain ⟨hlen, rfl⟩ := (bytes k).write_read hds
    rw [Prod.mk.injEq] at heq
    obtain ⟨rfl, rfl⟩ := heq
    subst hlen
    use BigEndian.value_lt ds
    rw [BigEndian.digits_value, id_eq]

/-! ### Words -/

/-- Take the next two bytes as a 16-bit word. -/
def takeU16 : Reader UInt16 := fun bs => (takeNumber 2 bs).map (fun p => (UInt16.ofNat p.1, p.2))

/-- Take the next four bytes as a 32-bit word. -/
def takeU32 : Reader UInt32 := fun bs => (takeNumber 4 bs).map (fun p => (UInt32.ofNat p.1, p.2))

/-- Take the next eight bytes as a 64-bit word. -/
def takeU64 : Reader UInt64 := fun bs => (takeNumber 8 bs).map (fun p => (UInt64.ofNat p.1, p.2))

/-- A format of `α` read and written through a bijection of its valid values. -/
theorem map (F : Format P write read) (f : α → β) (g : β → α) {Q : β → Prop}
    (hPQ : ∀ a, P a → Q (f a)) (hQP : ∀ b, Q b → P (g b))
    (hgf : ∀ a, P a → g (f a) = a) (hfg : ∀ b, Q b → f (g b) = b) :
  Format Q (fun b => write (g b)) (fun bs => (read bs).map (fun p => (f p.1, p.2)))
  := by
  constructor
  · intro b rest hb
    rw [F.read_write rest (hQP b hb), Option.map_some, hfg b hb]
  · intro bs b rest h
    rw [Option.map_eq_some_iff] at h
    obtain ⟨⟨a, rest'⟩, ha, heq⟩ := h
    rw [Prod.mk.injEq] at heq
    obtain ⟨rfl, rfl⟩ := heq
    obtain ⟨hP, rfl⟩ := F.write_read ha
    use hPQ a hP
    rw [hgf a hP]

theorem u16 :
  Format (fun _ => True) (fun v : UInt16 => BigEndian.digits 2 v.toNat) takeU16
  := by
  apply (number 2).map UInt16.ofNat UInt16.toNat
  · intro n _
    trivial
  · intro v _
    apply v.toNat_lt
  · intro n hn
    rw [UInt16.toNat_ofNat', Nat.mod_eq_of_lt (by omega)]
  · intro v _
    apply UInt16.ofNat_toNat

theorem u32 :
  Format (fun _ => True) (fun v : UInt32 => BigEndian.digits 4 v.toNat) takeU32
  := by
  apply (number 4).map UInt32.ofNat UInt32.toNat
  · intro n _
    trivial
  · intro v _
    apply v.toNat_lt
  · intro n hn
    rw [UInt32.toNat_ofNat', Nat.mod_eq_of_lt (by omega)]
  · intro v _
    apply UInt32.ofNat_toNat

theorem u64 :
  Format (fun _ => True) (fun v : UInt64 => BigEndian.digits 8 v.toNat) takeU64
  := by
  apply (number 8).map UInt64.ofNat UInt64.toNat
  · intro n _
    trivial
  · intro v _
    apply v.toNat_lt
  · intro n hn
    rw [UInt64.toNat_ofNat', Nat.mod_eq_of_lt (by omega)]
  · intro v _
    apply UInt64.ofNat_toNat

/-! ### Lists -/

/-- Take `n` values one after the other. -/
def takeMany (read : Reader α) : Nat → Reader (List α)
  | 0, bs => some ([], bs)
  | n + 1, bs => do
    let (a, bs) ← read bs
    let (as, bs) ← takeMany read n bs
    return (a :: as, bs)

/-- Values that are read back one by one are read back as a list. -/
theorem takeMany_append {as : List α}
    (h : ∀ a ∈ as, ∀ rest, read (write a ++ rest) = some (a, rest)) (rest : Bytes) :
  takeMany read as.length (as.flatMap write ++ rest) = some (as, rest)
  := by
  induction as with
  | nil => rfl
  | cons a as ih =>
    have has := ih fun b hb => h b (List.mem_cons_of_mem a hb)
    rw [List.length_cons, takeMany, List.flatMap_cons, List.append_assoc,
      h a List.mem_cons_self]
    simp [has]

/-- The lists of `n` values are written one value after the other. -/
theorem many (F : Format P write read) (n : Nat) :
  Format (fun as => as.length = n ∧ ∀ a ∈ as, P a) (List.flatMap write) (takeMany read n)
  := by
  constructor
  · rintro as rest ⟨rfl, hP⟩
    apply takeMany_append (fun a ha rest => F.read_write rest (hP a ha)) rest
  · intro bs as rest h
    induction n generalizing bs as with
    | zero =>
      rw [takeMany, Option.some.injEq, Prod.mk.injEq] at h
      obtain ⟨rfl, rfl⟩ := h
      simp
    | succ n ih =>
      simp only [takeMany, Option.bind_eq_bind, Option.bind_eq_some_iff, Option.pure_def,
        Option.some.injEq, Prod.mk.injEq, Prod.exists] at h
      obtain ⟨a, bs₁, ha, as', bs₂, has, rfl, rfl⟩ := h
      obtain ⟨hP, rfl⟩ := F.write_read ha
      obtain ⟨⟨hlen, hPs⟩, rfl⟩ := ih has
      refine ⟨⟨by rw [List.length_cons, hlen], ?_⟩, ?_⟩
      · intro b hb
        rcases List.mem_cons.mp hb with rfl | hb
        · exact hP
        · apply hPs b hb
      · rw [List.flatMap_cons, List.append_assoc]

/-- A list of values written in at least `k` bytes each takes at least `k` bytes for each of
its values. -/
theorem length_flatMap_ge {k : Nat} (h : ∀ a, P a → k ≤ (write a).length) {as : List α}
    (has : ∀ a ∈ as, P a) :
  as.length * k ≤ (as.flatMap write).length
  := by
  induction as with
  | nil => simp
  | cons a as ih =>
    have ha := h a (has a List.mem_cons_self)
    have has' := ih fun b hb => has b (List.mem_cons_of_mem a hb)
    rw [List.flatMap_cons, List.length_append, List.length_cons, Nat.add_mul]
    omega

/-- Records are determined by their bytes, without their number, when none is empty. -/
theorem flatMap_injective (F : Format P write read) (hne : ∀ a, P a → write a ≠ [])
    {as as' : List α} (has : ∀ a ∈ as, P a) (has' : ∀ a ∈ as', P a)
    (h : as.flatMap write = as'.flatMap write) :
  as = as'
  := by
  induction as generalizing as' with
  | nil =>
    cases as' with
    | nil => rfl
    | cons a as' =>
      exact absurd (List.append_eq_nil_iff.mp h.symm).1 (hne a (has' a List.mem_cons_self))
  | cons a as ih =>
    cases as' with
    | nil => exact absurd (List.append_eq_nil_iff.mp h).1 (hne a (has a List.mem_cons_self))
    | cons a' as' =>
      rw [List.forall_mem_cons] at has has'
      rw [List.flatMap_cons, List.flatMap_cons] at h
      obtain ⟨rfl, hrest⟩ := F.write_injective has.1 has'.1 h
      rw [ih has.2 has'.2 hrest]

/-- Records of one kind and then of another are determined by their bytes, without their
numbers, when none is empty and none of the one kind begins like one of the other. -/
theorem flatMap_append_injective {Q : β → Prop} {write' : β → Bytes} {read' : Reader β}
    (F : Format P write read) (F' : Format Q write' read')
    (hne : ∀ a, P a → write a ≠ []) (hne' : ∀ b, Q b → write' b ≠ [])
    {as as' : List α} {bs bs' : List β} (has : ∀ a ∈ as, P a) (has' : ∀ a ∈ as', P a)
    (hbs : ∀ b ∈ bs, Q b) (hbs' : ∀ b ∈ bs', Q b)
    (hdisjoint : ∀ a, P a → ∀ b, b ∈ bs ∨ b ∈ bs' → ∀ r s, write a ++ r ≠ write' b ++ s)
    (h : as.flatMap write ++ bs.flatMap write' = as'.flatMap write ++ bs'.flatMap write') :
  as = as' ∧ bs = bs'
  := by
  -- A list of records of the other kind does not begin with one of the one kind.
  have hmixed : ∀ {a r} {bs'' : List β}, P a → (∀ b ∈ bs'', b ∈ bs ∨ b ∈ bs') →
      write a ++ r ≠ bs''.flatMap write' := by
    intro a r bs'' ha hmem heq
    cases bs'' with
    | nil => apply hne a ha (List.append_eq_nil_iff.mp heq).1
    | cons b bs'' => apply hdisjoint a ha b (hmem b List.mem_cons_self) _ _ heq
  induction as generalizing as' with
  | nil =>
    cases as' with
    | nil => exact ⟨rfl, F'.flatMap_injective hne' hbs hbs' h⟩
    | cons a as' =>
      rw [List.flatMap_cons, List.append_assoc] at h
      exact absurd h.symm (hmixed (has' a List.mem_cons_self) fun _ => .inl)
  | cons a as ih =>
    cases as' with
    | nil =>
      rw [List.flatMap_cons, List.append_assoc] at h
      exact absurd h (hmixed (has a List.mem_cons_self) fun _ => .inr)
    | cons a' as' =>
      rw [List.forall_mem_cons] at has has'
      rw [List.flatMap_cons, List.flatMap_cons, List.append_assoc, List.append_assoc] at h
      obtain ⟨rfl, hrest⟩ := F.write_injective has.1 has'.1 h
      obtain ⟨rfl, rfl⟩ := ih has.2 has'.2 hrest
      exact ⟨rfl, rfl⟩

end Format
