import FirmwareDownload.Proofs.Controller.Serving

/-! A range of the memory, read piece by piece. The controller looks at each piece by itself, so a
range that goes round the end of the address space is refused only if a piece lies across it. -/

namespace FirmwareDownload

namespace Memory

theorem load_add (m : Memory) (addr : UInt32) (n k : Nat) :
    m.load addr (n + k) = m.load addr n ++ m.load (addr + n.toUInt32) k := by
  simp only [load, List.range_add, List.map_append, List.map_map]
  congr 1
  refine List.map_congr_left fun i _ => ?_
  show m (addr + (n + i).toUInt32) = m (addr + n.toUInt32 + i.toUInt32)
  rw [Nat.toUInt32_eq, Nat.toUInt32_eq, Nat.toUInt32_eq, UInt32.ofNat_add, UInt32.add_assoc]

end Memory

namespace ReadRange

variable {g : ReadRange} {i k : Nat}

/-- The piece ends in the address space. -/
def Within (g : ReadRange) (i : Nat) : Prop :=
  (g.pieceAddr i).toNat + g.pieceLength i ≤ UInt32.size

/-- The range ends in the address space, or it goes round the end once and is cut there. -/
def Unbroken (g : ReadRange) : Prop :=
  g.addr.toNat + g.length ≤ UInt32.size ∨
    Transfer.maxRead ∣ UInt32.size - g.addr.toNat ∧ g.addr.toNat + g.length ≤ 2 * UInt32.size

instance (g : ReadRange) : Decidable g.Unbroken := inferInstanceAs (Decidable (_ ∨ _))

instance (g : ReadRange) (i : Nat) : Decidable (g.Within i) := inferInstanceAs (Decidable (_ ≤ _))

theorem toNat_pieceAddr (g : ReadRange) (i : Nat) :
    (g.pieceAddr i).toNat = (g.addr.toNat + Transfer.maxRead * i) % UInt32.size := by
  rw [pieceAddr, UInt32.toNat_add, Nat.toUInt32_eq, UInt32.toNat_ofNat', Nat.add_mod_mod]
  rfl

theorem unbroken_iff : g.Unbroken ↔ ∀ i < g.pieceCount, g.Within i := by
  have ha : g.addr.toNat < 4294967296 := g.addr.toNat_lt
  have hw : ∀ i, g.Within i ↔ (g.addr.toNat + 248 * i) % 4294967296 +
      min 248 (g.length - 248 * i) ≤ 4294967296 := by
    intro i
    rw [Within, toNat_pieceAddr]
    rfl
  have hu : g.Unbroken ↔ g.addr.toNat + g.length ≤ 4294967296 ∨
      248 ∣ 4294967296 - g.addr.toNat ∧ g.addr.toNat + g.length ≤ 2 * 4294967296 := Iff.rfl
  have hc : ∀ i, i < g.pieceCount ↔ 248 * i < g.length := fun i => lt_pieceCount
  simp only [hw, hu, hc]
  generalize g.addr.toNat = a at ha
  generalize g.length = n
  constructor
  · rintro (h | ⟨⟨k, hk⟩, h⟩) i hi
    · omega
    · by_cases hik : i < k
      · rw [Nat.mod_eq_of_lt (by omega)]
        omega
      · have he : a + 248 * i = 4294967296 + 248 * (i - k) := by omega
        rw [he, Nat.add_mod_left, Nat.mod_eq_of_lt (by omega)]
        omega
  · intro h
    by_cases hn : a + n ≤ 4294967296
    · exact .inl hn
    · -- The piece that the address space ends in has to end with it.
      have h₁ := h ((4294967296 - a) / 248) (by omega)
      have hd : 248 * ((4294967296 - a) / 248) = 4294967296 - a := by omega
      refine .inr ⟨⟨_, hd.symm⟩, ?_⟩
      -- The second time it ends within a piece, since 248 does not divide its size.
      by_contra h₂
      have h₃ := h ((4294967296 - a) / 248 + 17318416) (by omega)
      omega

/-- The cells of a piece. -/
def cells (g : ReadRange) (m : Memory) (i : Nat) : Bytes :=
  m.load (g.pieceAddr i) (g.pieceLength i)

/-- The first `k` pieces. -/
def loaded (g : ReadRange) (m : Memory) (k : Nat) : List Bytes := (List.range k).map (g.cells m)

theorem length_loaded (g : ReadRange) (m : Memory) (k : Nat) : (g.loaded m k).length = k := by
  simp [loaded]

theorem loaded_succ (g : ReadRange) (m : Memory) (k : Nat) :
    g.loaded m (k + 1) = g.loaded m k ++ [g.cells m k] := by
  simp [loaded, List.range_succ]

theorem flatten_loaded (m : Memory) (hk : k ≤ g.pieceCount) :
    (g.loaded m k).flatten = m.load g.addr (min (Transfer.maxRead * k) g.length) := by
  induction k with
  | zero => rw [Nat.mul_zero, Nat.zero_min]; rfl
  | succ k ih =>
    have hlt := lt_pieceCount.1 hk
    have hs : min (Transfer.maxRead * (k + 1)) g.length =
        min (Transfer.maxRead * k) g.length + g.pieceLength k := by
      rw [pieceLength_eq, Nat.mul_succ]
      omega
    rw [loaded_succ, List.flatten_concat, ih (Nat.le_of_succ_le hk), hs, Memory.load_add,
      Nat.min_eq_left (Nat.le_of_lt hlt)]
    rfl

/-- The pieces together are the range. -/
theorem flatten_loaded_all (m : Memory) :
    (g.loaded m g.pieceCount).flatten = m.load g.addr g.length := by
  have hl : ¬ Transfer.maxRead * g.pieceCount < g.length :=
    fun h => Nat.lt_irrefl _ (lt_pieceCount.2 h)
  rw [flatten_loaded m (Nat.le_refl _), Nat.min_eq_right (Nat.le_of_not_lt hl)]

/-- What a controller with this memory answers to the request for a piece. -/
def answer (g : ReadRange) (m : Memory) (i : Nat) : Bytes :=
  if g.Within i then
    Frame.wire ⟨Status.ok.toByte, Controller.readReport m (g.pieceAddr i) (g.pieceLength i), false⟩
  else Frame.wire ⟨Status.addrRangeOverflow.toByte, [], false⟩

theorem piece?_answer (m : Memory) (hw : g.Within i) :
    g.piece? i (g.answer m i) = some (g.cells m i) := by
  rw [answer, if_pos hw]
  exact Controller.piece?_readReport g i m _

end ReadRange

namespace Controller

variable {c : Controller} {g : ReadRange} {i : Nat} {body : Bytes}

theorem Serving.facing (h : c.Serving) (isWrite : Bool) : (c.facing isWrite).Serving :=
  ⟨h.normalMode, h.silent, h.outbox, h.pendingRead⟩

theorem frame_eq_wire (g : ReadRange) (i : Nat) : g.frame i = Frame.wire
    ⟨RequestId.read, Transfer.readPayload (g.pieceAddr i) (g.pieceLength i), false⟩ :=
  g.frame_eq i

theorem Serving.answers_piece (h : c.Serving) (ho : c.openRecord = none) (hi : c.injected = [])
    (hlt : i < g.pieceCount) :
    c.Answers (g.frame i) (g.answer c.memory i) (c.facing false) := by
  have hl : g.pieceLength i ≤ Transfer.maxRead := Nat.min_le_left _ _
  have hp : 0 < g.pieceLength i := by
    have := ReadRange.lt_pieceCount.1 hlt
    rw [ReadRange.pieceLength]
    simp only [Transfer.maxRead] at this ⊢
    omega
  have hr : c.counting.receive (g.frame i) = (c.facing false).answerRead
      (Transfer.readPayload (g.pieceAddr i) (g.pieceLength i)) := by
    rw [frame_eq_wire]
    exact h.receive_plain ho hi
      (fun hc => absurd (show RequestId.read = RequestId.write from hc) (by decide))
      (show 7 < 1023 by decide)
  rw [answerRead_readPayload _ _ hp hl] at hr
  unfold ReadRange.answer
  by_cases hw : g.Within i
  · rw [if_neg (Nat.not_lt.2 hw)] at hr
    rw [if_pos hw]
    refine (h.facing false).responds ?_ hr
    rw [length_readReport]
    exact Nat.add_le_add_right hl 3
  · rw [if_pos (Nat.lt_of_not_le hw)] at hr
    rw [if_neg hw]
    exact (h.facing false).responds (Nat.zero_le _) hr

/-- How a read of the range ends that finds the controller like this, with nothing injected. -/
def readResult (c : Controller) (g : ReadRange) : Except DownloadError Unit :=
  if c.openRecord.isSome then .error (.failed (.shortRead (g.pieceLength 0) 0))
  else if g.Unbroken then .ok ()
  else .error (.failed (.unexpectedStatus .addrRangeOverflow))

end Controller

end FirmwareDownload
