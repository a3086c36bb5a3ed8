import ChargePoint.Ida.Packets

/-!
# Packets in two reads

`ValidIda` first puts together what it looks through (`Ida.assemble`): one read, or two, if the
first did not end with ETX. A byte that happens to be ETX ends a read as well as a packet does, so a
packet that is cut behind such a byte is lost. And two reads may be 516 bytes long, where the buffer
is 512.

How a packet is cut makes no difference to the length that is read from it: one whose low length
byte is 0x80 or more is as lost in two reads as in one.
-/

set_option autoImplicit false

namespace ChargePoint

/-! ## Assembly -/

/-- What the first half of `ValidIda` comes to: the bytes to look through, if there are any yet. -/
structure IdaAssembly where
  ida : Ida
  size : Option Nat

/-- **The first half of `ValidIda`.** It is undefined exactly if it writes outside the buffer. -/
def Ida.assemble (s : Ida) (rxSrc : List UInt8) : Option IdaAssembly :=
  let size := rxSrc.length
  if s.dataContinSize = 0 then
    if h : 0 + size ≤ parsBufCap then
      let s := { s with src := ParsBuf.clear.memcpy 0 rxSrc h }
      if rxSrc.getLast? ≠ some etxCode then some ⟨{ s with dataContinSize := size }, none⟩
      else some ⟨s, some size⟩
    else none
  else if 516 < s.dataContinSize + size then some ⟨{ s with dataContinSize := 0 }, none⟩
  else if rxSrc.getLast? ≠ some etxCode then some ⟨{ s with dataContinSize := 0 }, none⟩
  else if h : s.dataContinSize + size ≤ parsBufCap then
    some ⟨{ s with src := s.src.memcpy s.dataContinSize rxSrc h, dataContinSize := 0 },
      some (s.dataContinSize + size)⟩
  else none

/-- The second half: the loop, if there is something to look through. -/
def IdaAssembly.lookThrough (ch : PlainChar) (a : IdaAssembly) : Option (Option Nat × Ida) :=
  match a.size with
  | none => some (some 0, a.ida)
  | some size => (packetLoop ch a.ida.src size idaPackets 0 0 a.ida.rxForm).map fun r =>
      (r.1, { a.ida with rxForm := r.2 })

theorem validIda_eq (ch : PlainChar) (s : Ida) (rxSrc : List UInt8) :
    validIda ch s rxSrc = (s.assemble rxSrc).bind (IdaAssembly.lookThrough ch) := by
  unfold validIda Ida.assemble
  dsimp only
  split
  · split
    · split <;> rfl
    · rfl
  · split
    · rfl
    · split
      · rfl
      · split <;> rfl

section Assembly
variable {s : Ida} {c : List UInt8}

/-- The forms have no part in it. -/
theorem assemble_rxForm {a : IdaAssembly} (h : s.assemble c = some a) : a.ida.rxForm = s.rxForm := by
  unfold Ida.assemble at h
  dsimp only at h
  split at h
  · split at h
    · split at h <;> rw [← Option.some.inj h]
    · cases h
  · split at h
    · rw [← Option.some.inj h]
    · split at h
      · rw [← Option.some.inj h]
      · split at h
        · rw [← Option.some.inj h]
        · cases h

/-- A first read is kept, or looked through, as its last byte has it. -/
theorem assemble_first (hempty : s.dataContinSize = 0) (hlen : 0 + c.length ≤ parsBufCap) :
    s.assemble c = some ⟨{ s with
        src := ParsBuf.clear.memcpy 0 c hlen
        dataContinSize := if c.getLast? = some etxCode then 0 else c.length },
      if c.getLast? = some etxCode then some c.length else none⟩ := by
  unfold Ida.assemble
  dsimp only
  rw [if_pos hempty, dif_pos hlen]
  by_cases hetx : c.getLast? = some etxCode
  · rw [if_neg (not_not_intro hetx), if_pos hetx, if_pos hetx, hempty]
  · rw [if_pos hetx, if_neg hetx, if_neg hetx]

/-- A second one is appended, unless it is too long or does not end with ETX. -/
theorem assemble_second (hkept : s.dataContinSize ≠ 0)
    (hlen : s.dataContinSize + c.length ≤ parsBufCap) (hetx : c.getLast? = some etxCode) :
    s.assemble c = some ⟨{ s with
        src := s.src.memcpy s.dataContinSize c hlen
        dataContinSize := 0 }, some (s.dataContinSize + c.length)⟩ := by
  have hshort : ¬ 516 < s.dataContinSize + c.length := by
    unfold parsBufCap at hlen
    omega
  unfold Ida.assemble
  dsimp only
  rw [if_neg hkept, if_neg hshort, if_neg (not_not_intro hetx), dif_pos hlen]

end Assembly

/-! ## Two reads -/

/-- **Two calls deliver the packet**: one of them counts it, and its form holds it; the other one
counts nothing, and nothing is left over. -/
def Delivers (ch : PlainChar) (s : Ida) (c₁ c₂ : List UInt8) (p : IdaPacket) : Prop :=
  ∃ n₁ s₁ n₂ s₂, validIda ch s c₁ = some (some n₁, s₁) ∧ validIda ch s₁ c₂ = some (some n₂, s₂) ∧
    s₂.dataContinSize = 0 ∧
    ((n₁ = 1 ∧ n₂ = 0 ∧ p.Held (s₁.rxForm 0)) ∨ (n₁ = 0 ∧ n₂ = 1 ∧ p.Held (s₂.rxForm 0)))

/-- Neither call writes outside the buffer. -/
def WritesInside (s : Ida) (c₁ c₂ : List UInt8) : Prop :=
  ∃ a, s.assemble c₁ = some a ∧ (a.ida.assemble c₂).isSome = true

section Reads
variable {ch : PlainChar} {s s' : Ida} {c c₁ c₂ : List UInt8} {p : IdaPacket} {n : Nat}

/-- A packet is not found in fewer bytes than it has, if its length is read right. -/
theorem not_held_of_short (hreads : ch.Reads (p.data.length + 1))
    (h : validIda ch s c = some (some n, s')) (hn : 0 < n)
    (hshort : s.dataContinSize + c.length < p.bytes.length) (hlong : p.bytes.length ≤ 1024) :
    ¬ p.Held (s'.rxForm 0) := by
  intro hheld
  obtain ⟨src, stx, hat⟩ := validIda_found h hn
  have hlen := p.length_bytes
  have hbound := hat.size_of_reads (by rwa [hheld.lenth16, p.lenth16_toNat])
  rw [hheld.lenth16, p.lenth16_toNat] at hbound
  omega

/-- A read that does not end with ETX is kept. -/
theorem validIda_kept (hempty : s.dataContinSize = 0) (hlen : 0 + c.length ≤ parsBufCap)
    (hetx : c.getLast? ≠ some etxCode) : validIda ch s c = some (some 0, { s with
      src := ParsBuf.clear.memcpy 0 c hlen
      dataContinSize := c.length }) := by
  rw [validIda_eq, assemble_first hempty hlen, Option.bind_some, if_neg hetx, if_neg hetx]
  rfl

/-- One that does leaves nothing over. -/
theorem validIda_etx (hempty : s.dataContinSize = 0) (hetx : c.getLast? = some etxCode)
    (h : validIda ch s c = some (some n, s')) : s'.dataContinSize = 0 := by
  unfold validIda at h
  dsimp only at h
  rw [if_pos hempty] at h
  split at h
  · rw [if_neg (not_not_intro hetx)] at h
    obtain ⟨r, -, heq⟩ := Option.map_eq_some_iff.mp h
    obtain ⟨-, rfl⟩ := Prod.mk.inj heq
    exact hempty
  · cases h

/-- A call that counts nothing leaves the forms as they are. -/
theorem validIda_none (h : validIda ch s c = some (some 0, s')) : s'.rxForm = s.rxForm := by
  rw [validIda_eq] at h
  obtain ⟨a, ha, hlook⟩ := Option.bind_eq_some_iff.mp h
  rw [← assemble_rxForm ha]
  unfold IdaAssembly.lookThrough at hlook
  split at hlook
  · obtain ⟨-, rfl⟩ := Prod.mk.inj (Option.some.inj hlook)
    rfl
  · obtain ⟨r, hloop, heq⟩ := Option.map_eq_some_iff.mp hlook
    obtain ⟨hcount, rfl⟩ := Prod.mk.inj heq
    cases packetLoop_turn (k := 4) hloop with
    | inl hreturn => rw [hreturn]
    | inr hturn =>
      -- a turn that goes on has counted its packet
      obtain ⟨stx, form, -, hnext⟩ := hturn
      rw [← Prod.eta r, hcount] at hnext
      exact absurd (packetLoop_count hnext) (Nat.not_succ_le_zero 0)

/-- The second read of a packet ends as the packet does. -/
theorem getLast_second (hp : p.bytes = c₁ ++ c₂) (h₂ : c₂ ≠ []) : c₂.getLast? = some etxCode := by
  have hlast : (c₁ ++ c₂).getLast? = some etxCode := by
    rw [← hp, p.bytes_concat, List.getLast?_concat]
  rwa [List.getLast?_append_of_ne_nil _ h₂] at hlast

/-- **A packet of two reads** is delivered, if its length is read right, the first read is kept and
both fit into the buffer. -/
theorem delivers_of_kept (hreads : ch.Reads (p.data.length + 1)) (hempty : s.dataContinSize = 0)
    (h₁ : c₁ ≠ []) (h₂ : c₂ ≠ []) (hp : p.bytes = c₁ ++ c₂) (hfits : p.bytes.length ≤ 512)
    (hetx : c₁.getLast? ≠ some etxCode) : Delivers ch s c₁ c₂ p := by
  have hone : [p].flatMap IdaPacket.bytes = c₁ ++ c₂ := by
    rw [List.flatMap_singleton, hp]
  have htotal : c₁.length + c₂.length ≤ 512 := by
    rw [← List.length_append, ← hp]
    exact hfits
  have hlen : 0 + c₁.length ≤ parsBufCap := by
    change _ ≤ 512
    omega
  have hlen' : c₁.length + c₂.length ≤ parsBufCap := htotal
  have hfirst : (ParsBuf.clear.memcpy 0 c₁ hlen).Holds c₁ := ParsBuf.holds_clear.memcpy hlen
  have hboth : ((ParsBuf.clear.memcpy 0 c₁ hlen).memcpy c₁.length c₂ hlen').Holds
      ([] ++ [p].flatMap IdaPacket.bytes) := by
    rw [List.nil_append, hone]
    exact hfirst.memcpy hlen'
  have hcap : ([] ++ [p].flatMap IdaPacket.bytes).length ≤ parsBufCap := by
    rw [List.nil_append, hone, List.length_append]
    exact hlen'
  -- what the two copies leave in the buffer is one packet, from the first byte on
  obtain ⟨forms', hloop, hheld, -⟩ := packetLoop_packets (e := 0) (k := idaPackets) [p]
    (fun q hq => by rwa [List.mem_singleton.mp hq]) 0 s.rxForm hboth hcap (Nat.le_refl _)
    (fun b hb => absurd hb List.not_mem_nil) (show 1 ≤ 5 by decide)
  rw [List.nil_append, hone, List.length_append] at hloop
  have hsecond := assemble_second (s := { s with
    src := ParsBuf.clear.memcpy 0 c₁ hlen
    dataContinSize := c₁.length }) (fun h => h₁ (List.length_eq_zero_iff.mp h)) hlen'
    (getLast_second hp h₂)
  have hcall : validIda ch { s with
      src := ParsBuf.clear.memcpy 0 c₁ hlen
      dataContinSize := c₁.length } c₂ = some (some 1, { s with
        src := (ParsBuf.clear.memcpy 0 c₁ hlen).memcpy c₁.length c₂ hlen'
        dataContinSize := 0
        rxForm := forms' }) := by
    rw [validIda_eq, hsecond, Option.bind_some]
    unfold IdaAssembly.lookThrough
    dsimp only
    rw [hloop]
    rfl
  exact ⟨0, _, 1, _, validIda_kept hempty hlen hetx, hcall, rfl, .inr ⟨rfl, rfl, hheld 0 Nat.one_pos⟩⟩

/-- A packet cut behind an ETX is not delivered. -/
theorem not_delivers_of_etx (hreads : ch.Reads (p.data.length + 1)) (hempty : s.dataContinSize = 0)
    (h₁ : c₁ ≠ []) (h₂ : c₂ ≠ []) (hlen₁ : c₁.length ≤ 512) (hlen₂ : c₂.length ≤ 512)
    (hp : p.bytes = c₁ ++ c₂) (hetx : c₁.getLast? = some etxCode) : ¬ Delivers ch s c₁ c₂ p := by
  intro hdel
  obtain ⟨n₁, s₁, n₂, s₂, hcall₁, hcall₂, -, hheld⟩ := hdel
  have htotal : p.bytes.length = c₁.length + c₂.length := by rw [hp, List.length_append]
  have hpos₁ := List.length_pos_iff.mpr h₁
  have hpos₂ := List.length_pos_iff.mpr h₂
  have hempty₁ := validIda_etx hempty hetx hcall₁
  cases hheld with
  | inl hheld =>
    obtain ⟨rfl, -, hheld⟩ := hheld
    exact not_held_of_short hreads hcall₁ Nat.one_pos (by omega) (by omega) hheld
  | inr hheld =>
    obtain ⟨-, rfl, hheld⟩ := hheld
    exact not_held_of_short hreads hcall₂ Nat.one_pos (by omega) (by omega) hheld

/-- Nor is one that is longer than the buffer. -/
theorem not_delivers_of_long (hempty : s.dataContinSize = 0) (h₁ : c₁ ≠ []) (h₂ : c₂ ≠ [])
    (hlen₁ : c₁.length ≤ 512) (hp : p.bytes = c₁ ++ c₂) (hlong : 512 < p.bytes.length)
    (hetx : c₁.getLast? ≠ some etxCode) : ¬ Delivers ch s c₁ c₂ p := by
  intro hdel
  obtain ⟨n₁, s₁, n₂, s₂, hcall₁, hcall₂, -, hheld⟩ := hdel
  rw [hp, List.length_append] at hlong
  rw [validIda_kept hempty (by rw [Nat.zero_add]; exact hlen₁) hetx] at hcall₁
  obtain ⟨hcount, rfl⟩ := Prod.mk.inj (Option.some.inj hcall₁)
  obtain rfl : 0 = n₁ := Option.some.inj hcount
  have hkept : c₁.length ≠ 0 := fun h => h₁ (List.length_eq_zero_iff.mp h)
  unfold validIda at hcall₂
  dsimp only at hcall₂
  rw [if_neg hkept, if_neg (not_not_intro (getLast_second hp h₂)), dif_neg] at hcall₂
  · split at hcall₂
    · obtain ⟨hcount, -⟩ := Prod.mk.inj (Option.some.inj hcall₂)
      obtain rfl : 0 = n₂ := Option.some.inj hcount
      simp at hheld
    · cases hcall₂
  · exact Nat.not_le.mpr hlong

/-- Nor, over forms full of another byte than its last, is one whose length is not read right. -/
theorem not_delivers_of_misread (hreads : ¬ ch.Reads (p.data.length + 1)) :
    ¬ Delivers ch (.filled (p.data.getD (p.data.length - 1) 0 + 1)) c₁ c₂ p := by
  intro hdel
  obtain ⟨n₁, s₁, n₂, s₂, hcall₁, hcall₂, -, hheld⟩ := hdel
  cases hheld with
  | inl hheld =>
    obtain ⟨rfl, -, hheld⟩ := hheld
    obtain ⟨src, stx, hat⟩ := validIda_found hcall₁ Nat.one_pos
    exact hat.not_held_filled hreads hheld
  | inr hheld =>
    obtain ⟨rfl, rfl, hheld⟩ := hheld
    obtain ⟨src, stx, hat⟩ := validIda_found hcall₂ Nat.one_pos
    rw [validIda_none hcall₁] at hat
    exact hat.not_held_filled hreads hheld

/-- Two reads that are put together, and do not fit. -/
theorem writesInside_iff (hempty : s.dataContinSize = 0) (h₁ : c₁ ≠ []) (hlen₁ : c₁.length ≤ 512)
    (hlen₂ : c₂.length ≤ 512) :
    WritesInside s c₁ c₂ ↔ ¬ (c₁.getLast? ≠ some etxCode ∧ c₂.getLast? = some etxCode ∧
      512 < c₁.length + c₂.length ∧ c₁.length + c₂.length ≤ 516) := by
  have hfits₁ : 0 + c₁.length ≤ parsBufCap := by
    rw [Nat.zero_add]
    exact hlen₁
  have hfits₂ : 0 + c₂.length ≤ parsBufCap := by
    rw [Nat.zero_add]
    exact hlen₂
  have hfirst := assemble_first hempty hfits₁
  by_cases hetx : c₁.getLast? = some etxCode
  · rw [if_pos hetx, if_pos hetx] at hfirst
    -- a first read that ends with ETX is looked through at once, and the second starts anew
    have hsecond := assemble_first (s := { s with
      src := ParsBuf.clear.memcpy 0 c₁ hfits₁
      dataContinSize := 0 }) rfl hfits₂
    refine ⟨fun _ h => h.1 hetx, fun _ => ⟨_, hfirst, ?_⟩⟩
    rw [hsecond]
    rfl
  · rw [if_neg hetx, if_neg hetx] at hfirst
    have hkept : c₁.length ≠ 0 := fun h => h₁ (List.length_eq_zero_iff.mp h)
    -- otherwise the second is copied behind the first, and that copy is all there is to bound
    have hinside : WritesInside s c₁ c₂ ↔ (Ida.assemble { s with
        src := ParsBuf.clear.memcpy 0 c₁ hfits₁
        dataContinSize := c₁.length } c₂).isSome = true := by
      constructor
      · intro h
        obtain ⟨a, ha, hsome⟩ := h
        obtain rfl := Option.some.inj (hfirst.symm.trans ha)
        exact hsome
      · intro hsome
        exact ⟨_, hfirst, hsome⟩
    rw [hinside]
    unfold Ida.assemble
    dsimp only
    rw [if_neg hkept]
    by_cases hlong : 516 < c₁.length + c₂.length
    · rw [if_pos hlong]
      exact ⟨fun _ h => absurd h.2.2.2 (Nat.not_le.mpr hlong), fun _ => rfl⟩
    · rw [if_neg hlong]
      by_cases hetx₂ : c₂.getLast? = some etxCode
      · rw [if_neg (not_not_intro hetx₂)]
        split
        · rename_i hfits
          exact ⟨fun _ h => absurd hfits (Nat.not_le.mpr h.2.2.1), fun _ => rfl⟩
        · rename_i hover
          refine ⟨fun h => (by cases h), fun h => absurd ?_ h⟩
          exact ⟨hetx, hetx₂, Nat.not_le.mp hover, Nat.not_lt.mp hlong⟩
      · rw [if_pos hetx₂]
        exact ⟨fun _ h => absurd h.2.1 hetx₂, fun _ => rfl⟩

/-- **Two reads and the buffer.** A packet is delivered, whatever the forms held before, exactly if
it fits into the buffer, is not cut behind an ETX, and has a low length byte below 0x80. What is
written lies within the buffer, unless two reads that are put together have 513 to 516 bytes. -/
theorem ida_reassembly (h₁ : c₁ ≠ []) (h₂ : c₂ ≠ []) (hlen₁ : c₁.length ≤ 512)
    (hlen₂ : c₂.length ≤ 512) :
    (∀ p : IdaPacket, p.bytes = c₁ ++ c₂ →
      ((∀ s : Ida, s.dataContinSize = 0 → Delivers .signed s c₁ c₂ p) ↔
        p.bytes.length ≤ 512 ∧ c₁.getLast? ≠ some etxCode ∧ (p.data.length + 1) % 256 < 0x80)) ∧
    ∀ s : Ida, s.dataContinSize = 0 →
      (WritesInside s c₁ c₂ ↔ ¬ (c₁.getLast? ≠ some etxCode ∧ c₂.getLast? = some etxCode ∧
        512 < c₁.length + c₂.length ∧ c₁.length + c₂.length ≤ 516)) := by
  constructor
  · intro p hp
    constructor
    · intro hdel
      have hreads : PlainChar.signed.Reads (p.data.length + 1) := by
        by_contra hmis
        exact not_delivers_of_misread hmis (hdel (.filled _) rfl)
      have hetx : c₁.getLast? ≠ some etxCode := fun hetx =>
        not_delivers_of_etx hreads rfl h₁ h₂ hlen₁ hlen₂ hp hetx (hdel .init rfl)
      refine ⟨?_, hetx, hreads.resolve_left (by simp)⟩
      by_contra hlong
      exact not_delivers_of_long rfl h₁ h₂ hlen₁ hp (Nat.not_le.mp hlong) hetx (hdel .init rfl)
    · intro h
      obtain ⟨hfits, hetx, hlow⟩ := h
      intro s hempty
      exact delivers_of_kept (.inr hlow) hempty h₁ h₂ hp hfits hetx
  · intro s hempty
    exact writesInside_iff hempty h₁ hlen₁ hlen₂

end Reads

theorem ida_reassembly_ack :
    Delivers .signed .init (ackPacket.bytes.take 4) (ackPacket.bytes.drop 4) ackPacket ∧
      WritesInside .init (ackPacket.bytes.take 4) (ackPacket.bytes.drop 4) := by
  obtain ⟨hdel, hinside⟩ := @ida_reassembly (ackPacket.bytes.take 4) (ackPacket.bytes.drop 4)
    (by decide) (by decide) (by decide) (by decide)
  exact ⟨(hdel ackPacket rfl).mpr (by decide) .init rfl, (hinside .init rfl).mpr (by decide)⟩

/-- A packet whose data byte is ETX, cut behind it; one of 200 bytes, cut behind its length; and 513
bytes in two reads. -/
theorem cut_behind_etx :
    ¬ Delivers .signed .init [stxCode, 2, 0, 0x23, etxCode]
      (bytes16 (calcCRC [2, 0, 0x23, etxCode]) ++ [etxCode]) ⟨0x23, [etxCode], by decide⟩ ∧
    ¬ Delivers .signed .init (longPacket.bytes.take 3) (longPacket.bytes.drop 3) longPacket ∧
    ¬ WritesInside .init (List.replicate 512 0) [etxCode] := by
  refine ⟨?_, ?_, ?_⟩
  · exact not_delivers_of_etx (.inr (by decide)) rfl (by decide) (by simp) (by decide) (by decide)
      rfl rfl
  · intro hdel
    obtain ⟨n₁, s₁, n₂, s₂, hcall₁, hcall₂, -, hcount⟩ := hdel
    have hnone : ((validIda .signed .init (longPacket.bytes.take 3)).bind fun r =>
        (validIda .signed r.2 (longPacket.bytes.drop 3)).map fun r' => (r.1, r'.1)) =
        some (some 0, some 0) := by
      decide +kernel
    rw [hcall₁, Option.bind_some, hcall₂, Option.map_some] at hnone
    obtain ⟨hzero₁, hzero₂⟩ := Prod.mk.inj (Option.some.inj hnone)
    obtain rfl := Option.some.inj hzero₁
    obtain rfl := Option.some.inj hzero₂
    simp at hcount
  · have hlen : (List.replicate 512 (0 : UInt8)).length = 512 := List.length_replicate
    have hne : List.replicate 512 (0 : UInt8) ≠ [] := by
      intro hnil
      rw [hnil] at hlen
      cases hlen
    have hiff := @writesInside_iff .init _ [etxCode] rfl hne (Nat.le_of_eq hlen) (by decide)
    rw [hiff]
    exact not_not_intro (by decide +kernel)

end ChargePoint
