import FatDrive.BufScsiRefine

/-!
# FatDrive.BufScsiInvariant — an invariant of `fillBuf`, one store and `flush` is one of every call

`read` and `write` call `fillBuf` once for every byte.  `fills m d op` lists the states in which a
call does so, `Stores d op x b` says that it may store `b` at address `x`.  `Kept` collects what an
invariant owes: to `fillBuf`, to one store into the block just filled, to a moved cursor and to
`flush`.

* `fillBuf_cursor`: `fillBuf` never moves the cursor, whatever the device answers;
* `readFills_pos`, `writeFills_pos`: the cursor of these states is in the bytes of the call;
* `exec_kept`, `execAll_kept`: a kept invariant passes through every call and every list of calls,
  failing ones included.
-/

namespace FatDrive.OffsetScsiDevice

open Lib

variable {σ : Type}

/-! ### `fillBuf` leaves the cursor alone -/

/-- Same partition and same cursor. -/
def SameCursor (d d' : OffsetScsiDevice σ) : Prop :=
  d'.partitionStart = d.partitionStart ∧ d'.partitionIdx = d.partitionIdx

variable {m : ScsiCrate σ} {d d₁ d' d'' : OffsetScsiDevice σ}

theorem SameCursor.refl (d : OffsetScsiDevice σ) : SameCursor d d := ⟨rfl, rfl⟩

theorem SameCursor.trans (h₁ : SameCursor d d') (h₂ : SameCursor d' d'') : SameCursor d d'' :=
  ⟨h₂.1.trans h₁.1, h₂.2.trans h₁.2⟩

theorem SameCursor.pos_eq (h : SameCursor d d') : d'.pos = d.pos := by
  unfold pos
  rw [h.1, h.2]

theorem SameCursor.curBlockRawIdx_eq (h : SameCursor d d') :
    d'.curBlockRawIdx m = d.curBlockRawIdx m := by
  unfold curBlockRawIdx rawIdx
  rw [h.1, h.2]

theorem SameCursor.curBlockNumber_eq (h : SameCursor d d') :
    d'.curBlockNumber m = d.curBlockNumber m := by
  unfold curBlockNumber
  rw [h.curBlockRawIdx_eq]

theorem flush_cursor (d : OffsetScsiDevice σ) : SameCursor d (d.flush m).state := by
  unfold flush
  split
  · split <;> exact .refl _
  · exact .refl d

theorem clearBuffer_cursor (d : OffsetScsiDevice σ) : SameCursor d (d.clearBuffer m).state := by
  unfold clearBuffer
  split <;> exact .refl _

theorem evict_cursor (d : OffsetScsiDevice σ) : SameCursor d (d.evict m).state := by
  unfold evict
  split
  · exact Outcome.andThen_rel (fun _ _ _ => .trans) (flush_cursor d)
      (fun _ d₁ _ => clearBuffer_cursor d₁)
  · exact .refl d

theorem load_cursor (d : OffsetScsiDevice σ) : SameCursor d (d.load m).state := by
  unfold load
  dsimp only
  split
  · split <;> exact .refl _
  · exact .refl d

theorem fillBuf_cursor (d : OffsetScsiDevice σ) : SameCursor d (d.fillBuf m).state := by
  refine Outcome.andThen_rel (fun _ _ _ => .trans) (evict_cursor d) (fun _ d₁ _ => ?_)
  refine Outcome.andThen_rel (fun _ _ _ => .trans) (load_cursor d₁) (fun _ d₂ _ => ?_)
  rw [rest_state]
  exact .refl d₂

theorem storeByte_cursor {byte : UInt8} (h : d.storeByte m byte = some d') : SameCursor d d' := by
  rcases storeByte_cases h with rfl | ⟨old, -, -, rfl⟩
  · exact .refl d'
  · exact ⟨rfl, rfl⟩

/-! ### The parts of a call -/

/-- The states in which the loop of `read` calls `fillBuf`. -/
def readFills (m : ScsiCrate σ) : List UInt8 → OffsetScsiDevice σ → List (OffsetScsiDevice σ)
  | [], _ => []
  | _ :: cells, d =>
    d :: match d.fillBuf m with
      | .ok (_ :: _) d => readFills m cells (d.consume 1)
      | _ => []

/-- The states in which the loop of `write` calls `fillBuf`. -/
def writeFills (m : ScsiCrate σ) : List UInt8 → OffsetScsiDevice σ → List (OffsetScsiDevice σ)
  | [], _ => []
  | byte :: bytes, d =>
    d :: match d.fillBuf m with
      | .ok _ d =>
        if m.isEmpty d.blockBuffer then []
        else
          match d.storeByte m byte with
          | some d => writeFills m bytes (d.consume 1)
          | none => []
      | _ => []

/-- The states in which a call calls `fillBuf`. -/
def fills (m : ScsiCrate σ) (d : OffsetScsiDevice σ) : Op → List (OffsetScsiDevice σ)
  | .fillBuf => [d]
  | .read outputBuf => readFills m outputBuf d
  | .write toWrite => writeFills m toWrite d
  | _ => []

/-- A state in which `fillBuf` is called for one of `n` bytes from the cursor of `d` on. -/
def Fills (d : OffsetScsiDevice σ) (n : ℕ) (d₁ : OffsetScsiDevice σ) : Prop :=
  d₁.partitionStart = d.partitionStart ∧ d.pos ≤ d₁.pos ∧ d₁.pos < d.pos + n

theorem Fills.step {n : ℕ} (hcur : SameCursor d d') (h64 : d.pos + 1 < 2 ^ 64)
    (h : Fills (d'.consume 1) n d₁) : Fills d (n + 1) d₁ := by
  obtain ⟨hs, hle, hlt⟩ := h
  have hp := hcur.pos_eq
  rw [pos_consume (by omega), hp] at hle hlt
  exact ⟨hs.trans hcur.1, by omega, by omega⟩

theorem readFills_pos : ∀ (cells : List UInt8) (d : OffsetScsiDevice σ),
    d.pos + cells.length < 2 ^ 64 → ∀ d₁ ∈ readFills m cells d, Fills d cells.length d₁
  | [], d, _, d₁, h₁ => nomatch h₁
  | cell :: cells, d, h64, d₁, h₁ => by
    simp only [List.length_cons] at h64 ⊢
    have hcur := fillBuf_cursor (m := m) d
    rw [readFills] at h₁
    rcases List.mem_cons.mp h₁ with rfl | h₁
    · exact ⟨rfl, Nat.le_refl _, by omega⟩
    · split at h₁
      · next byte bytes d' hf =>
        rw [hf] at hcur
        have hp : d'.pos = d.pos := hcur.pos_eq
        refine Fills.step hcur (by omega) (readFills_pos cells (d'.consume 1) ?_ d₁ h₁)
        rw [pos_consume (by omega)]
        omega
      · cases h₁

theorem writeFills_pos : ∀ (bytes : List UInt8) (d : OffsetScsiDevice σ),
    d.pos + bytes.length < 2 ^ 64 → ∀ d₁ ∈ writeFills m bytes d, Fills d bytes.length d₁
  | [], d, _, d₁, h₁ => nomatch h₁
  | byte :: bytes, d, h64, d₁, h₁ => by
    simp only [List.length_cons] at h64 ⊢
    have hcur := fillBuf_cursor (m := m) d
    rw [writeFills] at h₁
    rcases List.mem_cons.mp h₁ with rfl | h₁
    · exact ⟨rfl, Nat.le_refl _, by omega⟩
    · split at h₁
      · next slc d' hf =>
        rw [hf] at hcur
        split at h₁
        · cases h₁
        · split at h₁
          · next d'' hs =>
            have hcur' : SameCursor d d'' := hcur.trans (storeByte_cursor hs)
            have hp : d''.pos = d.pos := hcur'.pos_eq
            refine Fills.step hcur' (by omega) (writeFills_pos bytes (d''.consume 1) ?_ d₁ h₁)
            rw [pos_consume (by omega)]
            omega
          · cases h₁
      · cases h₁

/-- The call is a `write` that has `b` to store at address `x`. -/
def Stores (d : OffsetScsiDevice σ) (op : Op) (x : ℕ) (b : UInt8) : Prop :=
  ∃ toWrite i, op = .write toWrite ∧ toWrite[i]? = some b ∧ x = d.pos + i

/-- What an invariant `I` owes to the parts of a call on a medium of `M` bytes, where `fillBuf` is
called in states that meet `C` and `B` allows the bytes to store. -/
structure Kept (m : ScsiCrate σ) (M : ℕ) (C : OffsetScsiDevice σ → Prop) (B : ℕ → UInt8 → Prop)
    (I : OffsetScsiDevice σ → Prop) : Prop where
  fill : ∀ d, I d → d.pos < M → C d → I (d.fillBuf m).state
  store : ∀ d bytes d₁ byte d₂, I d → d.pos < M → C d → d.fillBuf m = .ok bytes d₁ →
    B d.pos byte → d₁.storeByte m byte = some d₂ → I d₂
  moved : ∀ d n, n < 2 ^ 64 → I d → I { d with partitionIdx := n }
  flush : ∀ d, I d → I (d.flush m).state

/-! ### From the parts to the calls -/

variable {M : ℕ} {C : OffsetScsiDevice σ → Prop} {B : ℕ → UInt8 → Prop}
  {I : OffsetScsiDevice σ → Prop}

theorem Kept.consumed (hk : Kept m M C B I) (n : ℕ) (hI : I d) : I (d.consume n) :=
  hk.moved d _ (Nat.mod_lt _ (by decide)) hI

theorem readLoop_kept (hM : M < 2 ^ 64) (hk : Kept m M C B I) :
    ∀ (cells : List UInt8) (i : ℕ) (d : OffsetScsiDevice σ), I d → d.pos + cells.length ≤ M →
      (∀ d₁ ∈ readFills m cells d, C d₁) → I (readLoop m cells i d).2.state
  | [], i, d, hI, _, _ => hI
  | cell :: cells, i, d, hI, hin, hC => by
    simp only [List.length_cons] at hin
    have hpos : d.pos < M := by omega
    have hcur := fillBuf_cursor (m := m) d
    have hfill := hk.fill d hI hpos (hC d (List.mem_cons_self ..))
    rw [readLoop]
    rw [readFills] at hC
    cases hf : d.fillBuf m with
    | err e d₁ => rw [hf] at hfill; exact hfill
    | panicked d₁ => rw [hf] at hfill; exact hfill
    | ok bytes d₁ =>
      rw [hf] at hfill hcur hC
      cases bytes with
      | nil => exact hfill
      | cons byte bytes =>
        have hp : d₁.pos = d.pos := hcur.pos_eq
        exact readLoop_kept hM hk cells (i + 1) (d₁.consume 1) (hk.consumed 1 hfill)
          (by rw [pos_consume (by omega)]; omega) (fun d₂ h₂ => hC d₂ (List.mem_cons_of_mem _ h₂))

theorem writeLoop_kept (hM : M < 2 ^ 64) (hk : Kept m M C B I) :
    ∀ (bytes : List UInt8) (i : ℕ) (d : OffsetScsiDevice σ), I d → d.pos + bytes.length ≤ M →
      (∀ d₁ ∈ writeFills m bytes d, C d₁) → (∀ j b, bytes[j]? = some b → B (d.pos + j) b) →
      I (writeLoop m bytes i d).state
  | [], i, d, hI, _, _, _ => hI
  | byte :: bytes, i, d, hI, hin, hC, hB => by
    simp only [List.length_cons] at hin
    have hpos : d.pos < M := by omega
    have hcur := fillBuf_cursor (m := m) d
    have hCd := hC d (List.mem_cons_self ..)
    have hfill := hk.fill d hI hpos hCd
    rw [writeLoop]
    rw [writeFills] at hC
    cases hf : d.fillBuf m with
    | err e d₁ => rw [hf] at hfill; exact hfill
    | panicked d₁ => rw [hf] at hfill; exact hfill
    | ok slc d₁ =>
      rw [hf] at hfill hcur hC
      rw [Outcome.andThen_ok]
      dsimp only [Outcome.state_ok] at hC hcur
      split
      · exact hfill
      · next hne =>
        rw [if_neg hne] at hC
        cases hs : d₁.storeByte m byte with
        | none => exact hfill
        | some d₂ =>
          rw [hs] at hC
          have hI₂ := hk.store d slc d₁ byte d₂ hI hpos hCd hf (by simpa using hB 0 byte rfl) hs
          have hp : d₂.pos = d.pos := (hcur.trans (storeByte_cursor hs)).pos_eq
          have hp₁ : (d₂.consume 1).pos = d.pos + 1 := by rw [pos_consume (by omega), hp]
          refine writeLoop_kept hM hk bytes (i + 1) (d₂.consume 1) (hk.consumed 1 hI₂) (by omega)
            (fun d₃ h₃ => hC d₃ (List.mem_cons_of_mem _ h₃)) (fun j b hj => ?_)
          have := hB (j + 1) b (by simpa using hj)
          rwa [hp₁, Nat.add_assoc, Nat.add_comm 1 j]

/-- **One call** keeps a kept invariant, whether it returns, fails or panics. -/
theorem exec_kept (hM : M < 2 ^ 64) (hk : Kept m M C B I) {op : Op} (hI : I d)
    (hin : Inside M d op) (hC : ∀ d₁ ∈ fills m d op, C d₁) (hB : ∀ x b, Stores d op x b → B x b) :
    I (d.exec m op).state := by
  cases op with
  | seek pos =>
    cases pos with
    | start n => exact hk.moved d n (Nat.lt_of_le_of_lt (Nat.le_add_left _ _) hin) hI
    | current off =>
      refine hk.moved d _ ?_ hI
      split <;> exact Nat.mod_lt _ (by decide)
    | fromEnd off => exact hI
  | fillBuf =>
    have h := hk.fill d hI hin (hC d (List.mem_singleton_self d))
    rw [exec]
    cases hf : d.fillBuf m <;> rw [hf] at h <;> exact h
  | consume amt => exact hk.consumed amt hI
  | read buf =>
    have h := readLoop_kept hM hk buf 0 d hI hin hC
    rw [exec, read]
    cases hr : (readLoop m buf 0 d).2 <;> rw [hr] at h <;> exact h
  | write toWrite =>
    have h := writeLoop_kept hM hk toWrite 0 d hI hin hC
      (fun j b hj => hB _ b ⟨toWrite, j, rfl, hj, rfl⟩)
    rw [exec, write]
    cases hw : writeLoop m toWrite 0 d <;> rw [hw] at h <;> exact h
  | flush =>
    have h := hk.flush d hI
    rw [exec]
    cases hf : d.flush m <;> rw [hf] at h <;> exact h

/-- `b` was handed to a `write` of the list of calls, to be stored at `x`. -/
def Wrote (m : ScsiCrate σ) : OffsetScsiDevice σ → List Op → ℕ → UInt8 → Prop
  | _, [], _, _ => False
  | d, op :: ops, x, b => Stores d op x b ∨ Wrote m (d.exec m op).state ops x b

/-- **A list of calls** keeps a kept invariant. -/
theorem execAll_kept (hM : M < 2 ^ 64) (hk : Kept m M C B I) :
    ∀ (ops : List Op) (d : OffsetScsiDevice σ), I d →
      Along m (fun d op => Inside M d op ∧ ∀ d₁ ∈ fills m d op, C d₁) d ops →
      (∀ x b, Wrote m d ops x b → B x b) → I (execAll m d ops)
  | [], _, hI, _, _ => hI
  | _ :: ops, _, hI, ⟨⟨hin, hC⟩, hal⟩, hB =>
    execAll_kept hM hk ops _ (exec_kept hM hk hI hin hC fun x b h => hB x b (Or.inl h)) hal
      (fun x b h => hB x b (Or.inr h))

end FatDrive.OffsetScsiDevice
