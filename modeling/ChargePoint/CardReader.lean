import Mathlib.Data.List.Basic

/-!
# The number of a card

`UidAutoReadTask` makes sixteen characters of the number of a card, for the listener to compare and
to send. A card that is read by its UID has four bytes, and `HexToASCII_16` is to write each as two
numbers of two digits; the other cards have eight, for `HexToASCII_8`.

Both loops are the same but for their bound, their stride and their turn. What is followed here is
which bytes they read and where they write, as `Out` has sixteen places. Plain `char` is signed
(`-fsigned-char` in the build): the halves of a byte are masked, so that its sign makes no
difference to them, but a `len` from 0x80 on is negative, and the loop takes no turn (`charLen`).
-/

set_option autoImplicit false

namespace ChargePoint

/-- What a conversion does to memory: the bytes it reads, counted from `pBuf`, and what it stores
where, counted from `pOut`. -/
structure HexAccess where
  reads : List Nat
  writes : List (Nat × UInt8)

/-- The loop of a conversion, from index `i` and byte `p` on. -/
def hexLoop (stride : Nat) (turn : Nat → UInt8 → List (Nat × UInt8)) (pBuf : Nat → UInt8)
    (bound : Nat) : Nat → Nat → Nat → HexAccess
  | 0, _, _ => ⟨[], []⟩
  | fuel + 1, i, p =>
    if i < bound then
      let rest := hexLoop stride turn pBuf bound fuel (i + stride) (p + 1)
      ⟨p :: rest.reads, turn i (pBuf p) ++ rest.writes⟩
    else ⟨[], []⟩

/-- A turn of `HexToASCII_8`. The index moves once in the body and once in the head of the loop. -/
def hexTurn8 (i : Nat) (b : UInt8) : List (Nat × UInt8) :=
  let byteLow := b &&& 0x0F
  let byteHigh := (b >>> 4) &&& 0x0F
  [(i, byteHigh + 0x30), (i + 1, byteLow + 0x30)] ++
    (if byteHigh > 9 then [(i, byteHigh + 0x30 + 0x7)] else []) ++
    if byteLow > 9 then [(i + 1, byteLow + 0x30 + 0x7)] else []

/-- The turns that `len` allows, a plain `char`. -/
def charLen (len : UInt8) : Nat := if len < 0x80 then len.toNat else 0

/-- **`HexToASCII_8`.** -/
def hexToAscii8 (len : UInt8) (pBuf : Nat → UInt8) : HexAccess :=
  hexLoop 2 hexTurn8 pBuf (charLen len * 2) (charLen len * 2) 0 0

/-- A turn of `HexToASCII_16`. -/
def hexTurn16 (i : Nat) (b : UInt8) : List (Nat × UInt8) :=
  let byteInt0 := (b &&& 0x0F) % 10
  let byteInt1 := (b &&& 0x0F) / 10
  let byteInt2 := ((b >>> 4) &&& 0x0F) % 10
  let byteInt3 := ((b >>> 4) &&& 0x0F) / 10
  [(i * 4, byteInt3 + 0x30), (i * 4 + 1, byteInt2 + 0x30), (i * 4 + 2, byteInt1 + 0x30),
    (i * 4 + 3, byteInt0 + 0x30)]

/-- **`HexToASCII_16`.** -/
def hexToAscii16 (len : UInt8) (pBuf : Nat → UInt8) : HexAccess :=
  hexLoop 1 hexTurn16 pBuf (charLen len * 4) (charLen len * 4) 0 0

/-- The kinds of card. -/
inductive Card
  | uid
  | tmoney
  | other
  deriving DecidableEq

/-- `bReceived`, unless it stays 0. -/
def bReceived (response : Nat → UInt8) : Option Card :=
  if response 0 = 0x02 ∧ response 2 = 0x01 then
    if response 1 = 0x17 then some .uid
    else if response 1 = 0x3d then some .tmoney
    else if response 1 = 0x3e then some .other
    else none
  else none

/-- `sizeof Out`. -/
def sizeofOut : Nat := 16

/-- What `UidAutoReadTask` makes of a response. -/
def uidAutoRead (sListener : Bool) (response : Nat → UInt8) : Option HexAccess :=
  (bReceived response).map fun card =>
    if sListener then
      if card = .uid then hexToAscii16 4 fun i => response (6 + i)
      else hexToAscii8 8 fun i => response (5 + i)
    else hexToAscii16 4 fun i => response (6 + i)

/-! ## The loop -/

/-- **`n` turns.** -/
theorem hexLoop_turns (turn : Nat → UInt8 → List (Nat × UInt8)) (pBuf : Nat → UInt8)
    {stride n : Nat} (hstride : 0 < stride) (fuel : Nat) (hfuel : n ≤ fuel) (i p : Nat) :
    hexLoop stride turn pBuf (i + stride * n) fuel i p =
      ⟨(List.range n).map (p + ·),
        (List.range n).flatMap fun k => turn (i + stride * k) (pBuf (p + k))⟩ := by
  induction n generalizing fuel i p with
  | zero =>
    cases fuel with
    | zero => rfl
    | succ fuel => exact if_neg (Nat.lt_irrefl i)
  | succ n ih =>
    obtain ⟨fuel, rfl⟩ : ∃ k, fuel = k + 1 := ⟨fuel - 1, by omega⟩
    have hmore : i < i + stride * (n + 1) := Nat.lt_add_of_pos_right (Nat.mul_pos hstride n.succ_pos)
    have hbound : i + stride * (n + 1) = i + stride + stride * n := by
      rw [Nat.mul_succ]
      omega
    have hrest := ih fuel (by omega) (i + stride) (p + 1)
    unfold hexLoop
    rw [if_pos hmore, hbound, hrest, List.range_succ_eq_map, List.map_cons, List.map_map,
      List.flatMap_cons, List.flatMap_map]
    have hread : ∀ k, p + 1 + k = p + (k + 1) := fun k => by omega
    have hplace : ∀ k, i + stride + stride * k = i + stride * (k + 1) := by
      intro k
      rw [Nat.mul_succ]
      omega
    simp only [hread, hplace, Nat.add_zero, Nat.mul_zero, Function.comp_def]

/-! ## What is read and written -/

section Access
variable (len : UInt8) (pBuf : Nat → UInt8)

/-- `HexToASCII_8` takes a turn for each of its bytes, -/
theorem hexToAscii8_eq : hexToAscii8 len pBuf = ⟨(List.range (charLen len)).map (0 + ·),
    (List.range (charLen len)).flatMap fun k => hexTurn8 (0 + 2 * k) (pBuf (0 + k))⟩ := by
  have hturns := hexLoop_turns hexTurn8 pBuf (by decide : 0 < 2) (charLen len * 2)
    (Nat.le_mul_of_pos_right (charLen len) (by decide : 0 < 2)) 0 0
  rw [Nat.zero_add, Nat.mul_comm 2] at hturns
  exact hturns

/-- and `HexToASCII_16` four. -/
theorem hexToAscii16_eq : hexToAscii16 len pBuf = ⟨(List.range (charLen len * 4)).map (0 + ·),
    (List.range (charLen len * 4)).flatMap fun k => hexTurn16 (0 + 1 * k) (pBuf (0 + k))⟩ := by
  have hturns := hexLoop_turns hexTurn16 pBuf (by decide : 0 < 1) (charLen len * 4)
    (Nat.le_refl (charLen len * 4)) 0 0
  rw [Nat.zero_add, Nat.one_mul] at hturns
  exact hturns

/-- Turns that fill `w` places each, one after the other. -/
theorem places_flatMap {w n : Nat} (hw : 0 < w) {f : Nat → List (Nat × UInt8)}
    (h : ∀ k o, o ∈ (f k).map Prod.fst ↔ w * k ≤ o ∧ o < w * (k + 1)) (o : Nat) :
    o ∈ ((List.range n).flatMap f).map Prod.fst ↔ o < w * n := by
  rw [List.map_flatMap, List.mem_flatMap]
  constructor
  · rintro ⟨k, hk, ho⟩
    have hturn := (h k o).mp ho
    have hlast := Nat.mul_le_mul_left w (List.mem_range.mp hk)
    exact Nat.lt_of_lt_of_le hturn.2 hlast
  · intro ho
    refine ⟨o / w, List.mem_range.mpr (Nat.div_lt_of_lt_mul ho), (h _ o).mpr ⟨?_, ?_⟩⟩
    · exact Nat.mul_div_le o w
    · exact Nat.lt_mul_div_succ o hw

theorem hexTurn8_places (k : Nat) (b : UInt8) (o : Nat) :
    o ∈ (hexTurn8 (0 + 2 * k) b).map Prod.fst ↔ 2 * k ≤ o ∧ o < 2 * (k + 1) := by
  have hpair : o = 2 * k ∨ o = 2 * k + 1 ↔ 2 * k ≤ o ∧ o < 2 * (k + 1) := by omega
  rw [← hpair]
  unfold hexTurn8
  dsimp only
  -- a letter is stored twice, in one place
  split <;> split <;> simp <;> omega

theorem hexTurn16_places (k : Nat) (b : UInt8) (o : Nat) :
    o ∈ (hexTurn16 (0 + 1 * k) b).map Prod.fst ↔ 4 * k ≤ o ∧ o < 4 * (k + 1) := by
  have hfour : o = k * 4 ∨ o = k * 4 + 1 ∨ o = k * 4 + 2 ∨ o = k * 4 + 3 ↔
      4 * k ≤ o ∧ o < 4 * (k + 1) := by omega
  rw [← hfour]
  simp [hexTurn16]

variable {len} in
theorem charLen_eq (hlen : len < 0x80) : charLen len = len.toNat := if_pos hlen

variable {len} in
/-- `HexToASCII_8` reads the bytes it is given, and writes two characters for each. -/
theorem hexToAscii8_access (hlen : len < 0x80) (o : Nat) :
    (o ∈ (hexToAscii8 len pBuf).reads ↔ o < len.toNat) ∧
      (o ∈ (hexToAscii8 len pBuf).writes.map Prod.fst ↔ o < 2 * len.toNat) := by
  rw [hexToAscii8_eq, charLen_eq hlen]
  constructor
  · simp
  · exact places_flatMap (by decide) (fun k o => hexTurn8_places k _ o) o

/-- Whatever `len` is: -/
theorem hexToAscii16_turns (o : Nat) :
    (o ∈ (hexToAscii16 len pBuf).reads ↔ o < 4 * charLen len) ∧
      (o ∈ (hexToAscii16 len pBuf).writes.map Prod.fst ↔ o < 16 * charLen len) := by
  rw [hexToAscii16_eq]
  constructor
  · simp [Nat.mul_comm]
  · have hplaces := places_flatMap (n := charLen len * 4) (by decide : 0 < 4)
      (fun k o => hexTurn16_places k (pBuf (0 + k)) o) o
    rw [hplaces]
    omega

variable {len} in
/-- **`HexToASCII_16` reads four times as many**, and writes four characters for each of those. -/
theorem hexToAscii16_access (hlen : len < 0x80) (o : Nat) :
    (o ∈ (hexToAscii16 len pBuf).reads ↔ o < 4 * len.toNat) ∧
      (o ∈ (hexToAscii16 len pBuf).writes.map Prod.fst ↔ o < 16 * len.toNat) := by
  have hturns := hexToAscii16_turns len pBuf o
  rwa [charLen_eq hlen] at hturns

end Access

/-! ## What was meant -/

/-- The two digits of a number, as characters. -/
def twoDigits (n : Nat) : List UInt8 := [UInt8.ofNat (0x30 + n / 10), UInt8.ofNat (0x30 + n % 10)]

/-- The four characters of a byte: its high half and its low half, in decimal. -/
def decimalGroup (b : UInt8) : List UInt8 := twoDigits (b.toNat / 16) ++ twoDigits (b.toNat % 16)

/-- **A conversion that does what its caller counts on**: it reads the `len` bytes, it writes
`4 * len` characters, and the four from `4 * i` on are the digits of byte `i`. -/
structure Decimal (len : UInt8) (pBuf : Nat → UInt8) (a : HexAccess) : Prop where
  reads : ∀ o, o ∈ a.reads ↔ o < len.toNat
  places : ∀ o, o ∈ a.writes.map Prod.fst ↔ o < 4 * len.toNat
  groups : ∀ i < len.toNat, ∀ k < 4, (4 * i + k, (decimalGroup (pBuf i)).getD k 0) ∈ a.writes

/-- The digits are right, -/
theorem hexTurn16_digits (i : Nat) (b : UInt8) {k : Nat} (hk : k < 4) :
    (4 * i + k, (decimalGroup b).getD k 0) ∈ hexTurn16 (0 + 1 * i) b := by
  have htable : ∀ n : Fin 256, (hexTurn16 0 (UInt8.ofNat n.val)).map Prod.snd =
      decimalGroup (UInt8.ofNat n.val) := by decide +kernel
  have hdigits : decimalGroup b = (hexTurn16 0 b).map Prod.snd := by
    have hb := htable ⟨b.toNat, b.toNat_lt⟩
    rw [UInt8.ofNat_toNat] at hb
    exact hb.symm
  have hcases : k = 0 ∨ k = 1 ∨ k = 2 ∨ k = 3 := by omega
  rw [hdigits]
  obtain rfl | rfl | rfl | rfl := hcases <;> simp [hexTurn16, Nat.mul_comm]

/-- of every byte that is read. -/
theorem hexToAscii16_groups (len : UInt8) (pBuf : Nat → UInt8) {i : Nat} (hi : i < 4 * charLen len)
    {k : Nat} (hk : k < 4) :
    (4 * i + k, (decimalGroup (pBuf i)).getD k 0) ∈ (hexToAscii16 len pBuf).writes := by
  rw [hexToAscii16_eq]
  refine List.mem_flatMap.mpr ⟨i, List.mem_range.mpr (by omega), ?_⟩
  rw [Nat.zero_add i]
  exact hexTurn16_digits i (pBuf i) hk

/-- **`HexToASCII_16` does what is counted on for no byte at all, and never else.** -/
theorem hexToAscii16_decimal_iff (len : UInt8) (pBuf : Nat → UInt8) :
    Decimal len pBuf (hexToAscii16 len pBuf) ↔ len = 0 := by
  constructor
  · intro h
    have hreads : ∀ o, o < 4 * charLen len ↔ o < len.toNat := fun o =>
      (hexToAscii16_turns len pBuf o).1.symm.trans (h.reads o)
    apply UInt8.toNat_inj.mp
    show len.toNat = 0
    by_contra hne
    by_cases hlen : len < 0x80
    · rw [charLen_eq hlen] at hreads
      exact Nat.lt_irrefl _ ((hreads len.toNat).mp (by omega))
    · -- a negative `len` reads nothing
      rw [charLen, if_neg hlen] at hreads
      exact Nat.not_lt_zero 0 ((hreads 0).mpr (Nat.pos_of_ne_zero hne))
  · rintro rfl
    refine ⟨fun o => (hexToAscii16_access pBuf (by decide) o).1,
      fun o => (hexToAscii16_access pBuf (by decide) o).2, fun i hi => absurd hi (Nat.not_lt_zero i)⟩

/-! ## `Out` -/

/-- The response of a card with the UID 12345678. -/
def uidResponse (i : Nat) : UInt8 :=
  [0x02, 0x17, 0x01, 0x00, 0x05, 0x00, 0x12, 0x34, 0x56, 0x78].getD i 0

/-- Of that card, sixteen bytes are read for four, and `Out[16]` is written up to place 63. -/
theorem uid_overruns_out :
    bReceived uidResponse = some .uid ∧
    uidAutoRead true uidResponse = some (hexToAscii16 4 fun i => uidResponse (6 + i)) ∧
    ¬ Decimal 4 (fun i => uidResponse (6 + i)) (hexToAscii16 4 fun i => uidResponse (6 + i)) ∧
    15 ∈ (hexToAscii16 4 fun i => uidResponse (6 + i)).reads ∧
    63 ∈ (hexToAscii16 4 fun i => uidResponse (6 + i)).writes.map Prod.fst ∧ sizeofOut ≤ 63 := by
  refine ⟨rfl, rfl, ?_, ?_, ?_, by decide⟩
  · intro h
    exact absurd
      ((h.reads 15).mp ((hexToAscii16_access _ (by decide) 15).1.mpr (by decide))) (by decide)
  · exact (hexToAscii16_access _ (by decide) 15).1.mpr (by decide)
  · exact (hexToAscii16_access _ (by decide) 63).2.mpr (by decide)

/-- **What keeps to `Out`**: a card with eight bytes, with a listener. The four bytes of a UID, and
any card where nobody listens, are written far beyond it. -/
theorem uidAutoRead_inside_iff (sListener : Bool) {response : Nat → UInt8} {card : Card}
    (h : bReceived response = some card) :
    (∃ a, uidAutoRead sListener response = some a ∧ ∀ o ∈ a.writes.map Prod.fst, o < sizeofOut) ↔
      sListener = true ∧ card ≠ .uid := by
  have hbeyond : ∀ pBuf, ∃ o ∈ (hexToAscii16 4 pBuf).writes.map Prod.fst, ¬ o < sizeofOut :=
    fun pBuf => ⟨63, (hexToAscii16_access pBuf (by decide) 63).2.mpr (by decide), by decide⟩
  have hwithin : ∀ pBuf, ∀ o ∈ (hexToAscii8 8 pBuf).writes.map Prod.fst, o < sizeofOut :=
    fun pBuf o => (hexToAscii8_access pBuf (by decide) o).2.mp
  have hout : ∀ {pBuf}, ¬ ∃ a, some (hexToAscii16 4 pBuf) = some a ∧
      ∀ o ∈ a.writes.map Prod.fst, o < sizeofOut := by
    rintro pBuf ⟨a, ha, hin⟩
    obtain ⟨o, ho, hpast⟩ := hbeyond pBuf
    exact hpast (hin o (Option.some.inj ha ▸ ho))
  unfold uidAutoRead
  rw [h, Option.map_some]
  cases sListener with
  | false =>
    constructor
    · intro hin
      exact absurd hin hout
    · intro hboth
      exact absurd hboth.1 (by decide)
  | true =>
    by_cases hcard : card = .uid
    · rw [if_pos rfl, if_pos hcard]
      constructor
      · intro hin
        exact absurd hin hout
      · intro hboth
        exact absurd hcard hboth.2
    · rw [if_pos rfl, if_neg hcard]
      exact ⟨fun _ => ⟨rfl, hcard⟩, fun _ => ⟨_, rfl, hwithin _⟩⟩

end ChargePoint
