import ChargePoint.Ida.Kerid
import ChargePoint.Lib.DropQueue
import ChargePoint.Lib.Trace
import Mathlib.Data.List.Induction

/-!
# The store of the battery data

A message of `CMD_SENDKERID` is kept twice, decoded and as it came, at the same index of two arrays
of thirty. The decoded records are a queue that makes room (`keri` in `StoreInv`): when it is full,
each record moves down by one. The raw ones do not move. From the thirty-first message on, each but
the last stands beside a record of another message (`kerid_consistent`).
-/

set_option autoImplicit false

namespace ChargePoint

open Trace DropQueue

/-! ## Where a record comes from -/

/-- The message decoded, over a record that was there before. -/
def DecodedFrom (k : IdaKeriData) (f : IdaDataForm) : Prop :=
  ∃ des hcell htemp, k = decodeKerid des f hcell htemp

/-- What is kept of a message as it came. -/
def IdaDataForm.rawPart (f : IdaDataForm) : UInt16 × List UInt8 :=
  (f.lenth16 - 6, f.data.slice 6 (f.lenth16 - 6).toNat)

def RawFrom (r : IdaVasRawData) (f : IdaDataForm) : Prop :=
  (r.dataLenth, r.data.bytes.take r.dataLenth.toNat) = f.rawPart

/-- **The store is consistent**: it holds the last thirty messages in the order they came, or all of
them, and both records at an index are of the same message. -/
def Consistent (s : IdaStore) (msgs : List IdaDataForm) : Prop :=
  s.idx.toNat = (last 30 msgs).length ∧ ∀ i f, (last 30 msgs)[i]? = some f →
    DecodedFrom (s.keriData i) f ∧ RawFrom (s.rawData i) f

/-- One message comes in, and is observed if it is accepted. -/
def keridRun : Step IdaStore IdaDataForm IdaDataForm := fun s f =>
  (s.sendKerid f).map fun r => (r.2, if r.1 then [f] else [])

/-! ## A message -/

/-- **What a message does**: nothing, or it is stored at the index behind the last record, where
there is room. -/
inductive KeridStep (s s' : IdaStore) (f : IdaDataForm) : List IdaDataForm → Prop
  | rejected (hs : s' = s) : KeridStep s s' f []
  | accepted (hidx : s'.idx = s.room.idx + 1)
      (hkeri : DecodedFrom (s'.keriData s.room.idx.toNat) f)
      (hothers : ∀ j ≠ s.room.idx.toNat, s'.keriData j = s.room.keriData j)
      (hraw : RawFrom (s'.rawData s.room.idx.toNat) f)
      (hkept : ∀ j ≠ s.room.idx.toNat, s'.rawData j = s.rawData j) : KeridStep s s' f [f]

section Messages
variable {s s' : IdaStore} {f : IdaDataForm}

theorem room_rawData (s : IdaStore) : s.room.rawData = s.rawData := by
  unfold IdaStore.room
  split <;> rfl

theorem keridRun_step {o : List IdaDataForm} (h : keridRun s f = some (s', o)) :
    KeridStep s s' f o := by
  obtain ⟨r, hsend, heq⟩ := Option.map_eq_some_iff.mp h
  unfold IdaStore.sendKerid at hsend
  dsimp only at hsend
  split at hsend
  · split at hsend
    · rename_i hfits
      obtain rfl := Option.some.inj hsend
      obtain ⟨rfl, rfl⟩ := Prod.mk.inj heq
      have hslice := f.data.length_slice hfits.2.2
      refine .accepted rfl ?_ ?_ ?_ ?_
      · exact ⟨s.room.keriData s.room.idx.toNat, hfits.1, hfits.2.1, Function.update_self ..⟩
      · intro j hj
        exact Function.update_of_ne hj _ _
      · unfold RawFrom IdaDataForm.rawPart
        dsimp only
        rw [Function.update_self]
        dsimp only
        rw [Bytes.put_zero_take _ hslice]
      · intro j hj
        rw [← room_rawData s]
        exact Function.update_of_ne hj _ _
    · cases hsend
  · obtain rfl := Option.some.inj hsend
    obtain ⟨rfl, rfl⟩ := Prod.mk.inj heq
    exact .rejected rfl

end Messages

/-! ## Runs -/

/-- **The invariant.** The decoded records are the last thirty messages. The raw ones are the first
twenty-nine, and the last. -/
structure StoreInv (s : IdaStore) (msgs : List IdaDataForm) : Prop where
  idx : s.idx.toNat = min msgs.length 30
  keri : ∀ i f, (last 30 msgs)[i]? = some f → DecodedFrom (s.keriData i) f
  raw : ∀ i f, i < 29 → msgs[i]? = some f → RawFrom (s.rawData i) f
  newest : ∀ f, 30 ≤ msgs.length → msgs.getLast? = some f → RawFrom (s.rawData 29) f

section Runs
variable {s s' : IdaStore} {msgs : List IdaDataForm} {f : IdaDataForm}

/-- The index that a message is given. -/
theorem StoreInv.room_idx (hI : StoreInv s msgs) : s.room.idx.toNat = min msgs.length 29 := by
  have hidx := hI.idx
  unfold IdaStore.room
  split
  · rename_i hfull
    rw [UInt8.lt_iff_toNat_lt, hidx] at hfull
    change 29 < _ at hfull
    change 29 = _
    omega
  · rename_i hroom
    rw [UInt8.lt_iff_toNat_lt, hidx] at hroom
    change ¬ 29 < _ at hroom
    omega

/-- The records that make room are the queue with its oldest entry dropped. -/
theorem StoreInv.room_keri (hI : StoreInv s msgs) {i : Nat} {g : IdaDataForm}
    (hi : i < s.room.idx.toNat) (hg : (last 30 (msgs ++ [f]))[i]? = some g) :
    DecodedFrom (s.room.keriData i) g := by
  rw [hI.room_idx] at hi
  have hlen := length_last 30 msgs
  have hidx := hI.idx
  rw [← push_last (by decide)] at hg
  unfold push at hg
  unfold IdaStore.room
  split at hg
  · rename_i hroom
    rw [List.getElem?_append_left (by omega)] at hg
    rw [if_neg (by rw [UInt8.lt_iff_toNat_lt, hidx]; change ¬ 29 < _; omega)]
    exact hI.keri i g hg
  · rename_i hfull
    rw [List.getElem?_append_left (by rw [List.length_tail]; omega), List.getElem?_tail] at hg
    rw [if_pos (by rw [UInt8.lt_iff_toNat_lt, hidx]; change 29 < _; omega)]
    dsimp only
    rw [if_pos (by omega)]
    exact hI.keri (i + 1) g hg

/-- **A message** keeps it. -/
theorem storeInv_accepted (hI : StoreInv s msgs) (h : KeridStep s s' f [f]) :
    StoreInv s' (msgs ++ [f]) := by
  cases h with
  | accepted hidx hkeri hothers hraw hkept =>
    have hroom := hI.room_idx
    have hlen : (msgs ++ [f]).length = msgs.length + 1 := by simp
    refine ⟨?_, ?_, ?_, ?_⟩
    · rw [hidx, UInt8.toNat_add, hroom, hlen]
      change (_ + 1) % 256 = _
      omega
    · intro i g hg
      have hlt : i < (last 30 (msgs ++ [f])).length := (List.getElem?_eq_some_iff.mp hg).1
      rw [length_last, hlen] at hlt
      -- the message goes to the room, and the places below it keep what they held
      by_cases hi : i < s.room.idx.toNat
      · rw [hothers i (Nat.ne_of_lt hi)]
        exact hI.room_keri hi hg
      · -- the newest one
        obtain rfl : i = s.room.idx.toNat := by omega
        have hnew : (last 30 (msgs ++ [f]))[s.room.idx.toNat]? = some f := by
          have hcut : (msgs ++ [f]).length - 30 ≤ msgs.length := by omega
          unfold last
          rw [List.drop_append_of_le_length hcut, List.getElem?_append_right, List.length_drop]
          · rw [hroom, hlen]
            have : min msgs.length 29 - (msgs.length - (msgs.length + 1 - 30)) = 0 := by omega
            rw [this]
            rfl
          · rw [List.length_drop, hroom]
            omega
        obtain rfl := Option.some.inj (hnew.symm.trans hg)
        exact hkeri
    · intro i g hi hg
      by_cases hold : i < msgs.length
      · rw [List.getElem?_append_left hold] at hg
        rw [hkept i (by omega)]
        exact hI.raw i g hi hg
      · have hlt : i < (msgs ++ [f]).length := (List.getElem?_eq_some_iff.mp hg).1
        obtain rfl : i = msgs.length := by omega
        rw [List.getElem?_concat_length] at hg
        obtain rfl := Option.some.inj hg
        have hat : s.room.idx.toNat = msgs.length := by omega
        rwa [← hat]
    · intro g hfull hg
      rw [List.getLast?_concat] at hg
      obtain rfl := Option.some.inj hg
      have hat : s.room.idx.toNat = 29 := by omega
      rwa [← hat]

theorem storeInv_run {s₀ : IdaStore} (hidx : s₀.idx = 0) (h : Always keridRun s₀ s msgs) :
    StoreInv s msgs := by
  refine h.invariant (I := StoreInv) ⟨?_, ?_, ?_, ?_⟩ ?_
  · rw [hidx]
    rfl
  · intro i f hf
    cases hf
  · intro i f _ hf
    cases hf
  · intro f hfull
    exact absurd hfull (by decide)
  · intro s msgs f s' o hI _ hstep
    have h := keridRun_step hstep
    cases h with
    | rejected hs =>
      rw [hs, List.append_nil]
      exact hI
    | accepted hidx hkeri hothers hraw hkept =>
      exact storeInv_accepted hI (.accepted hidx hkeri hothers hraw hkept)

/-- **The records at an index are of the same message** exactly up to the thirtieth message, or if
nothing can tell the messages apart: each raw record that stays is the same as the one that should
have taken its place. -/
theorem kerid_consistent {s₀ : IdaStore} (hidx : s₀.idx = 0) (h : Always keridRun s₀ s msgs) :
    Consistent s msgs ↔ msgs.length ≤ 30 ∨ ∀ i < 29,
      msgs[i]?.map IdaDataForm.rawPart = (last 30 msgs)[i]?.map IdaDataForm.rawPart := by
  have hI := storeInv_run hidx h
  have hlen := length_last 30 msgs
  constructor
  · intro hcons
    by_cases hfew : msgs.length ≤ 30
    · exact .inl hfew
    · refine .inr fun i hi => ?_
      obtain ⟨g, hg⟩ : ∃ g, msgs[i]? = some g :=
        ⟨_, List.getElem?_eq_getElem (show i < msgs.length by omega)⟩
      obtain ⟨f, hf⟩ : ∃ f, (last 30 msgs)[i]? = some f :=
        ⟨_, List.getElem?_eq_getElem (show i < (last 30 msgs).length by omega)⟩
      -- the raw parts never move, the rest does once there are more than thirty
      have hstays := hI.raw i _ hi hg
      have hshould := (hcons.2 i _ hf).2
      rw [hg, hf, Option.map_some, Option.map_some]
      exact congrArg some (hstays.symm.trans hshould)
  · intro hcond
    refine ⟨by rw [hI.idx, hlen], fun i f hf => ⟨hI.keri i f hf, ?_⟩⟩
    have hlt : i < (last 30 msgs).length := (List.getElem?_eq_some_iff.mp hf).1
    by_cases hi : i < 29
    · cases hcond with
      | inl hfew =>
        rw [last_of_length_le hfew] at hf
        exact hI.raw i f hi hf
      | inr hsame =>
        obtain ⟨g, hg⟩ : ∃ g, msgs[i]? = some g :=
          ⟨_, List.getElem?_eq_getElem (show i < msgs.length by omega)⟩
        have hpart := hsame i hi
        rw [hg, hf, Option.map_some, Option.map_some] at hpart
        exact (hI.raw i _ hi hg).trans (Option.some.inj hpart)
    · -- the newest message
      obtain rfl : i = 29 := by omega
      refine hI.newest f (by omega) ?_
      have hlast : (last 30 msgs).getLast? = some f := by
        rw [List.getLast?_eq_getElem?, show (last 30 msgs).length - 1 = 29 by omega]
        exact hf
      unfold last at hlast
      rw [List.getLast?_drop] at hlast
      split at hlast
      · cases hlast
      · exact hlast

end Runs

/-! ## Messages that are accepted -/

/-- The message passes the tests, and what is copied of it lies within `Data8`. -/
def Acceptable (f : IdaDataForm) : Prop :=
  f.validKerid = true ∧ f.idTmp.toNat ≤ 192 ∧ f.idTmp1.toNat ≤ 20 ∧
    6 + (f.lenth16 - 6).toNat ≤ 512

instance (f : IdaDataForm) : Decidable (Acceptable f) := inferInstanceAs (Decidable (_ ∧ _))

/-- It is accepted in any state. -/
theorem keridRun_acceptable {f : IdaDataForm} (h : Acceptable f) (s : IdaStore) :
    ∃ s', keridRun s f = some (s', [f]) := by
  unfold keridRun IdaStore.sendKerid
  rw [if_pos h.1]
  dsimp only
  rw [dif_pos h.2]
  exact ⟨_, rfl⟩

/-- Any number of them, one after another. -/
theorem run_acceptable {msgs : List IdaDataForm} (h : ∀ f ∈ msgs, Acceptable f) :
    ∃ s, Always keridRun .zero s msgs := by
  induction msgs using List.reverseRecOn with
  | nil => exact ⟨.zero, .start⟩
  | append_singleton msgs f ih =>
    obtain ⟨s, hrun⟩ := ih fun g hg => h g (List.mem_append_left _ hg)
    obtain ⟨s', hstep⟩ := keridRun_acceptable (h f (by simp)) s
    exact ⟨s', hrun.step trivial hstep⟩

/-- The least message there is, with a state of charge. -/
def kerid (soc : UInt8) : IdaDataForm :=
  IdaDataForm.zero.store ([45, 0, 0, 0xA1, 4, 0, 0, 0, 0, 0xA2, 0x11] ++ List.replicate 17 0 ++
    [0xA3, 1, soc, 0xA4, 1, 100, 0xA5, 2, 0, 0, 0xA6, 2, 0, 0, 0xA7, 0, 0, 0xA8, 0]) (by
      simp [idaFormSize])

/-- Thirty-one messages, each like the first. -/
theorem kerid_consistent_alike : ∃ s, Always keridRun .zero s (List.replicate 31 (kerid 50)) ∧
    Consistent s (List.replicate 31 (kerid 50)) := by
  have hfirst : Acceptable (kerid 50) := by decide +kernel
  obtain ⟨s, hrun⟩ := run_acceptable fun f (hf : f ∈ List.replicate 31 (kerid 50)) =>
    List.eq_of_mem_replicate hf ▸ hfirst
  refine ⟨s, hrun, (kerid_consistent rfl hrun).mpr (.inr fun i hi => ?_)⟩
  have hlast : last 30 (List.replicate 31 (kerid 50)) = List.replicate 30 (kerid 50) := by
    unfold last
    rw [List.drop_replicate, List.length_replicate]
  rw [hlast, List.getElem?_replicate_of_lt (by omega), List.getElem?_replicate_of_lt (by omega)]

/-- After thirty-one messages the first raw record is that of the first message, and the first
decoded one that of the second. -/
theorem first_message_stays : ∃ s msgs, Always keridRun .zero s msgs ∧ ¬ Consistent s msgs := by
  have hfirst : Acceptable (kerid 50) := by decide +kernel
  have hnext : Acceptable (kerid 51) := by decide +kernel
  have hall : ∀ f ∈ kerid 50 :: List.replicate 30 (kerid 51), Acceptable f := by
    intro f hf
    cases List.mem_cons.mp hf with
    | inl heq =>
      rw [heq]
      exact hfirst
    | inr hmem =>
      rw [List.eq_of_mem_replicate hmem]
      exact hnext
  obtain ⟨s, hrun⟩ := run_acceptable hall
  refine ⟨s, _, hrun, ?_⟩
  intro hcons
  have hI := storeInv_run rfl hrun
  have hstays := hI.raw 0 (kerid 50) (by decide) rfl
  have hshould := (hcons.2 0 (kerid 51) rfl).2
  have hsame : (kerid 50).rawPart = (kerid 51).rawPart := hstays.symm.trans hshould
  have hdiff : (kerid 50).rawPart ≠ (kerid 51).rawPart := by decide +kernel
  exact hdiff hsame

end ChargePoint
