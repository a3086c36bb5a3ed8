import ChargePoint.Secc.Chunks
import ChargePoint.Secc.Task

/-!
# The initialisation of the SECC

`SeccInitStep` goes through five writes. What a step leaves behind for the next one is a chain of
writes and acknowledgements (`chain`), and the flag says that the chain has grown by the step's own
write, provided that an acknowledgement is only counted for a step whose write has gone out
(`Timely`). The flag itself knows nothing of that: it is cleared by whatever acknowledgement matches
the last request, and this is still the request of the step before.
-/

set_option autoImplicit false

namespace ChargePoint

open Trace
open scoped List

/-! ## Initialisations

An initialisation starts whenever step `NONE` is entered, and only the last one counts: `current`
is the log since then. `chain_complete` gets the result from the ten observations as a sublist of
it, in their order, with any others between. -/

/-- The writes of the initialisation. -/
def initWrites : List UInt16 := [40001, 40027, 40006, 40007, 40009]

def SeccTaskObs.isRestart : SeccTaskObs → Bool
  | .entered .none => true
  | .entered _ | .sentRead _ _ | .sent _ | .acked _ => false

def SeccTaskObs.isEntry : SeccTaskObs → Bool
  | .entered _ => true
  | .sentRead _ _ | .sent _ | .acked _ => false

/-- What was observed in the current initialisation, and since the current step was entered. -/
def current (log : List SeccTaskObs) : List SeccTaskObs := since SeccTaskObs.isRestart log

def sinceEntry (log : List SeccTaskObs) : List SeccTaskObs := since SeccTaskObs.isEntry log

/-- **The initialisation is complete**: all the writes were sent in this order, and each was
acknowledged after it was sent. -/
def InitComplete (log : List SeccTaskObs) : Prop :=
  initWrites.map .sent <+ current log ∧
    ∀ a ∈ initWrites, [.sent a, .acked a] <+ current log

/-- The write a step waits for. -/
def writeOf : SeccInitStep → Option UInt16
  | .csmr => some 40001
  | .evser => some 40027
  | .chrgprm => some 40006
  | .chrgtype => some 40007
  | .vasreq => some 40009
  | .none | .payopt | .init | .csmstat | .csmerr | .pwmduty | .pwmvolt | .vasreadreq | .vaschk
  | .done => none

/-- **An acknowledgement in time**: one that would be counted for a step finds that the write of
the step has been sent since the step was entered. -/
def timely (s : SeccTask) (log : List SeccTaskObs) : SeccTaskEvent → Bool
  | .chunk bytes =>
    match s.secc.validSecc bytes, writeOf s.initStep with
    | some r, some a =>
      !(r.1.1 && r.2.src.byte 1 == fcWrite && s.sendChkFlg) || (sinceEntry log).contains (.sent a)
    | some _, none | none, _ => true
  | .tick _ | .wake _ | .cardWait | .setTx _ | .setEvcc _ => true

/-! ## The chain -/

/-- How many writes are behind a step when it is entered. -/
def stage : SeccInitStep → Option Nat
  | .none | .csmr => some 0
  | .evser => some 1
  | .chrgprm => some 2
  | .chrgtype => some 3
  | .init | .vasreq => some 4
  | .vasreadreq | .vaschk | .done => some 5
  | .payopt | .csmstat | .csmerr | .pwmduty | .pwmvolt => none

/-- The first `k` writes, each with its acknowledgement. -/
def chain (k : Nat) : List SeccTaskObs := (initWrites.take k).flatMap fun a => [.sent a, .acked a]

/-- A step waits for the write that follows those behind it. -/
theorem chain_succ {step : SeccInitStep} {a : UInt16} {k : Nat} (ha : writeOf step = some a)
    (hk : stage step = some k) : chain (k + 1) = chain k ++ [.sent a, .acked a] := by
  cases step <;> simp only [writeOf, stage, Option.some.injEq, reduceCtorEq] at ha hk
  all_goals
    subst ha hk
    rfl

theorem chain_complete {log : List SeccTaskObs} (h : chain 5 <+ current log) : InitComplete log := by
  constructor
  · have hsends : initWrites.map .sent <+ chain 5 := by decide
    exact hsends.trans h
  · intro a ha
    have hpair : initWrites.all (fun a => [.sent a, .acked a] <+ chain 5) = true := by decide
    have hfirst := of_decide_eq_true (List.all_eq_true.mp hpair a ha)
    exact hfirst.trans h

/-! ## The invariant

Two things are known while a step is under way. The writes behind the step are in the log with
their acknowledgements (`chain`); and if the step's flag has been cleared, its own write has been
added to them. -/

/-- **What the flag and the step say about the log.** -/
structure InitInv (s : SeccTask) (log : List SeccTaskObs) : Prop where
  asleep : s.asleep = true → s.initStep = .none ∨ s.initStep = .evser ∨ s.initStep = .done
  /-- the writes behind the step -/
  behind : ∃ k before, stage s.initStep = some k ∧ current log = before ++ sinceEntry log ∧
    chain k <+ before
  /-- only the step's own write is sent, and then it is the last request -/
  own : ∀ a, writeOf s.initStep = some a → ∀ b, .sent b ∈ sinceEntry log →
    b = a ∧ s.secc.writeTx.reqAddr = led2Bed16 a
  /-- a cleared flag -/
  cleared : ∀ a k, writeOf s.initStep = some a → stage s.initStep = some k →
    s.sendChkFlg = false → chain (k + 1) <+ current log

theorem current_concat (log : List SeccTaskObs) (x : SeccTaskObs) :
    current (log ++ [x]) = if x.isRestart then [] else current log ++ [x] := since_concat log x

theorem sinceEntry_concat (log : List SeccTaskObs) (x : SeccTaskObs) :
    sinceEntry (log ++ [x]) = if x.isEntry then [] else sinceEntry log ++ [x] := since_concat log x

section Inv
variable {s s' : SeccTask} {log : List SeccTaskObs}

/-- Only the step, the flag, the last write request and the sleep matter. -/
theorem InitInv.congr (h : InitInv s log) (hstep : s'.initStep = s.initStep)
    (hflag : s'.sendChkFlg = s.sendChkFlg) (hsleep : s'.asleep = s.asleep)
    (haddr : s'.secc.writeTx.reqAddr = s.secc.writeTx.reqAddr) : InitInv s' log := by
  obtain ⟨hasleep, hbehind, hown, hcleared⟩ := h
  refine ⟨?_, ?_, ?_, ?_⟩
  · rwa [hstep, hsleep]
  · rwa [hstep]
  · rwa [hstep, haddr]
  · rwa [hstep, hflag]

/-- The initialisation starts again. -/
theorem InitInv.restart (hstep : s'.initStep = .none) : InitInv s' (log ++ [.entered .none]) := by
  have hcur : current (log ++ [.entered .none]) = [] := by
    rw [current_concat]
    rfl
  have hentry : sinceEntry (log ++ [.entered .none]) = [] := by
    rw [sinceEntry_concat]
    rfl
  refine ⟨fun _ => .inl hstep, ⟨0, [], by rw [hstep]; rfl, ?_, List.Sublist.refl _⟩, ?_, ?_⟩
  · rw [hcur, hentry]
    rfl
  · intro a ha
    rw [hstep] at ha
    cases ha
  · intro a k ha
    rw [hstep] at ha
    cases ha

/-- A step is entered, with the writes behind it. -/
theorem InitInv.enter {next : SeccInitStep} {k : Nat} (hne : next ≠ .none)
    (hstep : s'.initStep = next) (hk : stage next = some k) (hchain : chain k <+ current log)
    (hsleep : s'.asleep = false)
    (hflag : ∀ a, writeOf next = some a → s'.sendChkFlg = false → chain (k + 1) <+ current log) :
    InitInv s' (log ++ [.entered next]) := by
  have hcur : current (log ++ [.entered next]) = current log ++ [.entered next] := by
    rw [current_concat]
    cases next <;> first | rfl | exact absurd rfl hne
  have hentry : sinceEntry (log ++ [.entered next]) = [] := by
    rw [sinceEntry_concat]
    rfl
  refine ⟨?_, ⟨k, current log ++ [.entered next], ?_, ?_, ?_⟩, ?_, ?_⟩
  · intro h
    rw [hsleep] at h
    cases h
  · rw [hstep]
    exact hk
  · rw [hcur, hentry, List.append_nil]
  · exact hchain.trans (List.sublist_append_left _ _)
  · intro a _ b hb
    rw [hentry] at hb
    cases hb
  · intro a k' ha hk' hclear
    rw [hstep] at ha hk'
    obtain rfl : k' = k := Option.some.inj (hk'.symm.trans hk)
    rw [hcur]
    exact (hflag a ha hclear).trans (List.sublist_append_left _ _)

/-- An observation that is no entry, and no write of another step. -/
theorem InitInv.observe (h : InitInv s log) {x : SeccTaskObs} (hx : x.isEntry = false)
    (hsent : ∀ a b, writeOf s.initStep = some a → x = .sent b →
      b = a ∧ s.secc.writeTx.reqAddr = led2Bed16 a) : InitInv s (log ++ [x]) := by
  have hrestart : x.isRestart = false := by
    cases x with
    | entered step => cases hx
    | sentRead addr n => rfl
    | sent addr => rfl
    | acked addr => rfl
  have hcur : current (log ++ [x]) = current log ++ [x] := by
    rw [current_concat, hrestart]
    rfl
  have hentry : sinceEntry (log ++ [x]) = sinceEntry log ++ [x] := by
    rw [sinceEntry_concat, hx]
    rfl
  obtain ⟨hasleep, ⟨k, before, hk, hsplit, hchain⟩, hown, hcleared⟩ := h
  refine ⟨hasleep, ⟨k, before, hk, ?_, hchain⟩, ?_, ?_⟩
  · rw [hcur, hentry, hsplit, List.append_assoc]
  · intro a ha b hb
    rw [hentry, List.mem_append, List.mem_singleton] at hb
    rcases hb with hb | hb
    · exact hown a ha b hb
    · exact hsent a b ha hb.symm
  · intro a k' ha hk' hflag
    rw [hcur]
    exact (hcleared a k' ha hk' hflag).trans (List.sublist_append_left _ _)

end Inv

/-! ## Requests

A turn that is due fills in one request and may move to the next step. What it has filled in is
sent at the end of the turn, so the invariant is stated once more for a turn that has not ended
(`TurnInv`). -/

/-- A turn that enters no step. -/
def Stays (s : SeccTask) (r : Option SeccTurn) : Prop :=
  ∀ t, r = some t → t.task.initStep = s.initStep ∧ t.obs = []

/-- A turn that only fills in a read request. -/
theorem readTx_eq {s : SeccTask} {a n : UInt16} {t : SeccTurn} (h : s.readTx a n = some t) :
    t = ⟨.read, { s with secc := { s.secc with readTx := makeReadTx a n } }, []⟩ :=
  (Option.some.inj h).symm

theorem writeTx_eq {s : SeccTask} {a n : UInt16} {t : SeccTurn} (h : s.writeTx a n = some t) :
    ∃ tx : SeccModbusWriteTx, tx.reqAddr = led2Bed16 a ∧
      t = ⟨.write, { s with secc := { s.secc with writeTx := tx } }, []⟩ := by
  unfold SeccTask.writeTx makeWriteTx at h
  obtain ⟨tx, htx, rfl⟩ := Option.map_eq_some_iff.mp h
  simp only at htx
  split at htx
  · refine ⟨tx, ?_, rfl⟩
    obtain rfl := Option.some.inj htx
    rfl
  · cases htx

/-- The turn of a step that waits for its write. -/
structure OwnTurn (s : SeccTask) (a : UInt16) (t : SeccTurn) : Prop where
  step : t.task.initStep = s.initStep
  flag : t.task.sendChkFlg = s.sendChkFlg
  obs : t.obs = []
  /-- it is sent, or left to be sent after the sleep -/
  write : (t.ret = .write ∧ t.task.secc.writeTx.reqAddr = led2Bed16 a ∧
      t.task.asleep = s.asleep) ∨
    (t.ret = .asleep ∧ t.task.secc.writeTx.reqAddr = s.secc.writeTx.reqAddr ∧ s.initStep = .evser)

theorem ownTurn_writeTx {s : SeccTask} {ws : List UInt16} {a n : UInt16} {t : SeccTurn}
    (h : (s.setData ws).writeTx a n = some t) : OwnTurn s a t := by
  obtain ⟨tx, haddr, rfl⟩ := writeTx_eq h
  exact ⟨rfl, rfl, rfl, .inl ⟨rfl, haddr, rfl⟩⟩

theorem ownTurn_sendChrgPrm {s : SeccTask} {a : UInt16} {t : SeccTurn} (hstep : s.initStep = .evser)
    (h : s.sendChrgPrm = some t) : OwnTurn s a t := by
  obtain rfl := Option.some.inj h
  exact ⟨rfl, rfl, rfl, .inr ⟨rfl, rfl, hstep⟩⟩

/-- What a turn leaves to the end of the loop. -/
structure TurnInv (t : SeccTurn) (log : List SeccTaskObs) : Prop where
  inv : InitInv t.task (log ++ t.obs)
  sends : t.ret = .write → ∀ a, writeOf t.task.initStep = some a →
    t.task.secc.writeTx.reqAddr = led2Bed16 a

section Turns
variable {s : SeccTask} {log : List SeccTaskObs} {t : SeccTurn}

theorem OwnTurn.turnInv {a : UInt16} (h : OwnTurn s a t) (hinv : InitInv s log)
    (hstep : writeOf s.initStep = some a) : TurnInv t log := by
  obtain ⟨hasleep, hbehind, hown, hcleared⟩ := hinv
  refine ⟨?_, ?_⟩
  · rw [h.obs, List.append_nil]
    refine ⟨?_, ?_, ?_, ?_⟩
    · rw [h.step]
      rcases h.write with ⟨-, -, hsame⟩ | ⟨-, -, hevser⟩
      · rwa [hsame]
      · exact fun _ => .inr (.inl hevser)
    · rwa [h.step]
    · intro a' ha' b hb
      rw [h.step] at ha'
      obtain ⟨hb', haddr⟩ := hown a' ha' b hb
      refine ⟨hb', ?_⟩
      rcases h.write with ⟨-, hwrite, -⟩ | ⟨-, hsame, -⟩
      · obtain rfl : a' = a := Option.some.inj (ha'.symm.trans hstep)
        exact hwrite
      · rw [hsame]
        exact haddr
    · rw [h.step, h.flag]
      exact hcleared
  · intro hwrite a' ha'
    rw [h.step] at ha'
    obtain rfl : a' = a := Option.some.inj (ha'.symm.trans hstep)
    rcases h.write with ⟨-, haddr, -⟩ | ⟨hsleep, -⟩
    · exact haddr
    · rw [hsleep] at hwrite
      cases hwrite

/-- A turn that reads leaves the step as it is. -/
theorem turnInv_readTx {a n : UInt16} (hinv : InitInv s log) (h : s.readTx a n = some t) :
    TurnInv t log := by
  obtain rfl := readTx_eq h
  refine ⟨?_, fun hwrite => by cases hwrite⟩
  rw [List.append_nil]
  exact hinv.congr rfl rfl rfl rfl

/-- A step that waits for its write goes on when the flag is cleared. -/
theorem turnInv_awaitWrite {send : Option SeccTurn} {next : SeccInitStep} {flag : Bool} {a : UInt16}
    {k : Nat} (hinv : InitInv s log) (hawake : s.asleep = false)
    (hown : ∀ t, send = some t → OwnTurn s a t) (ha : writeOf s.initStep = some a)
    (hk : stage s.initStep = some k) (hnext : stage next = some (k + 1)) (hne : next ≠ .none)
    (hflag : ∀ b, writeOf next = some b → flag = true)
    (h : s.awaitWrite send next flag = some t) : TurnInv t log := by
  unfold SeccTask.awaitWrite at h
  split at h
  · exact (hown t h).turnInv hinv ha
  · rename_i hclear
    obtain rfl := Option.some.inj h
    refine ⟨?_, fun hwrite => by cases hwrite⟩
    have hchain := hinv.cleared a k ha hk (by simpa using hclear)
    refine InitInv.enter hne rfl hnext hchain hawake ?_
    intro b hb hfalse
    have htrue := hflag b hb
    simp only at hfalse
    rw [htrue] at hfalse
    cases hfalse

/-- The writes behind a step were made in the current initialisation. -/
theorem InitInv.chain {k : Nat} (hinv : InitInv s log) (hk : stage s.initStep = some k) :
    chain k <+ current log := by
  obtain ⟨k', before, hk', hsplit, hchain⟩ := hinv.behind
  obtain rfl : k' = k := Option.some.inj (hk'.symm.trans hk)
  rw [hsplit]
  exact hchain.trans (List.sublist_append_left _ _)

/-- **`InitSecc`** keeps the invariant. -/
theorem turnInv_initSecc (hinv : InitInv s log) (hawake : s.asleep = false)
    (h : s.initSecc = some t) : TurnInv t log := by
  have hidle : s.idle = some t → TurnInv t log := by
    intro h
    obtain rfl := Option.some.inj h
    refine ⟨?_, fun hwrite => by cases hwrite⟩
    rwa [List.append_nil]
  unfold SeccTask.initSecc at h
  split at h
  case h_1 hstep =>
    split at h
    · exact turnInv_readTx hinv h
    · obtain rfl := Option.some.inj h
      refine ⟨?_, fun hwrite => by cases hwrite⟩
      refine InitInv.enter (by decide) rfl rfl (hinv.chain (by rw [hstep]; rfl)) hawake ?_
      intro a _ hfalse
      cases hfalse
  case h_2 hstep =>
    exact turnInv_awaitWrite hinv hawake (fun t h => ownTurn_writeTx h) (by rw [hstep]; rfl)
      (by rw [hstep]; rfl) rfl (by decide) (fun _ _ => rfl) h
  case h_3 hstep =>
    exact turnInv_awaitWrite hinv hawake (fun t h => ownTurn_sendChrgPrm hstep h)
      (by rw [hstep]; rfl) (by rw [hstep]; rfl) rfl (by decide) (fun _ _ => rfl) h
  case h_4 hstep =>
    exact turnInv_awaitWrite hinv hawake (fun t h => ownTurn_writeTx h) (by rw [hstep]; rfl)
      (by rw [hstep]; rfl) rfl (by decide) (fun _ _ => rfl) h
  case h_5 hstep =>
    exact turnInv_awaitWrite hinv hawake (fun t h => ownTurn_writeTx h) (by rw [hstep]; rfl)
      (by rw [hstep]; rfl) rfl (by decide) (fun _ hb => by cases hb) h
  case h_6 hstep =>
    obtain ⟨k, before, hk, -⟩ := hinv.behind
    rw [hstep] at hk
    cases hk
  case h_7 hstep =>
    split at h
    · exact turnInv_readTx hinv h
    · obtain rfl := Option.some.inj h
      refine ⟨?_, fun hwrite => by cases hwrite⟩
      refine InitInv.enter (by decide) rfl rfl (hinv.chain (by rw [hstep]; rfl)) hawake ?_
      intro a _ hfalse
      cases hfalse
  case h_8 hstep =>
    exact turnInv_awaitWrite hinv hawake (fun t h => ownTurn_writeTx h) (by rw [hstep]; rfl)
      (by rw [hstep]; rfl) rfl (by decide) (fun _ hb => by cases hb) h
  case h_9 hstep =>
    obtain ⟨t', ht', rfl⟩ := Option.map_eq_some_iff.mp h
    obtain rfl := readTx_eq ht'
    refine ⟨?_, fun hwrite => by cases hwrite⟩
    exact InitInv.enter (by decide) rfl rfl (hinv.chain (by rw [hstep]; rfl)) hawake
      fun a ha => by cases ha
  case h_10 hstep =>
    have hchain := hinv.chain (k := 5) (by rw [hstep]; rfl)
    split at h
    · obtain rfl := Option.some.inj h
      refine ⟨?_, fun hwrite => by cases hwrite⟩
      -- back to the last write, which has been acknowledged already
      exact InitInv.enter (k := 4) (by decide) rfl rfl
        ((by decide : ChargePoint.chain 4 <+ ChargePoint.chain 5).trans hchain) hawake
        fun a _ _ => hchain
    · obtain rfl := Option.some.inj h
      refine ⟨?_, fun hwrite => by cases hwrite⟩
      exact InitInv.enter (by decide) rfl rfl hchain hawake fun a ha => by cases ha
  all_goals exact hidle h

/-! ## After the initialisation

The charging scenario uses the same two functions for its requests and never writes the step of
the initialisation. All that is needed of it is that (`Stays`). -/

theorem stays_idle (s : SeccTask) : Stays s s.idle := by
  intro t h
  obtain rfl := Option.some.inj h
  exact ⟨rfl, rfl⟩

theorem stays_readTx (s : SeccTask) (a n : UInt16) : Stays s (s.readTx a n) := by
  intro t h
  obtain rfl := readTx_eq h
  exact ⟨rfl, rfl⟩

theorem stays_sendChrgReady (s : SeccTask) : Stays s s.sendChrgReady := by
  intro t h
  have hown := ownTurn_writeTx h
  exact ⟨hown.step, hown.obs⟩

theorem stays_sendChrgPrm (s : SeccTask) : Stays s s.sendChrgPrm := by
  intro t h
  obtain rfl := Option.some.inj h
  exact ⟨rfl, rfl⟩

/-- A turn of a state with the same step. -/
theorem Stays.of {s s' : SeccTask} {r : Option SeccTurn} (h : Stays s' r)
    (hstep : s'.initStep = s.initStep) : Stays s r := by
  intro t ht
  obtain ⟨hstep', hobs⟩ := h t ht
  exact ⟨hstep'.trans hstep, hobs⟩

theorem Stays.ite {s : SeccTask} {p : Prop} [Decidable p] {r r' : Option SeccTurn} (h : Stays s r)
    (h' : Stays s r') : Stays s (if p then r else r') := by
  split
  · exact h
  · exact h'

theorem stays_handsh (s : SeccTask) : Stays s s.handsh := by
  unfold SeccTask.handsh
  refine .ite (.ite ((stays_idle _).of rfl) (stays_idle _)) ?_
  refine .ite ((stays_readTx _ _ _).of rfl) (.ite ((stays_readTx _ _ _).of rfl) ?_)
  refine .ite (stays_readTx _ _ _) (.ite ((stays_readTx _ _ _).of rfl) ?_)
  exact .ite ((stays_readTx _ _ _).of rfl) (stays_readTx _ _ _)

theorem stays_charging (s : SeccTask) : Stays s s.charging := by
  unfold SeccTask.charging
  refine .ite ((stays_idle _).of rfl) ?_
  refine .ite ((stays_readTx _ _ _).of rfl) (.ite ((stays_readTx _ _ _).of rfl) ?_)
  refine .ite ((stays_sendChrgPrm _).of rfl) ?_
  exact .ite ((stays_readTx _ _ _).of rfl) ((stays_readTx _ _ _).of rfl)

theorem stays_chrgSwitch (s : SeccTask) : Stays s s.chrgSwitch := by
  unfold SeccTask.chrgSwitch
  split
  · exact (stays_idle _).of rfl
  · exact (stays_readTx _ _ _).of rfl
  · exact .ite ((stays_idle _).of rfl) ((stays_idle _).of rfl)
  · exact .ite (stays_sendChrgReady s) ((stays_idle _).of rfl)
  · exact stays_handsh s
  · exact .ite ((stays_sendChrgReady _).of rfl) ((stays_idle _).of rfl)
  · exact .ite ((stays_sendChrgReady _).of rfl) ((stays_idle _).of rfl)
  · exact stays_charging s

theorem stays_chrgSecc (s : SeccTask) : Stays s s.chrgSecc := by
  unfold SeccTask.chrgSecc
  refine .ite ((stays_readTx _ _ _).of rfl) (.ite (stays_sendChrgReady s) ?_)
  exact .ite (stays_chrgSwitch s) ((stays_idle _).of rfl)

/-- **Charging does not touch `SeccInitStep`.** -/
theorem stays_chrgSenario (s : SeccTask) : Stays s s.chrgSenario := by
  unfold SeccTask.chrgSenario
  refine .ite ?_ ((stays_readTx _ _ _).of rfl)
  intro t h
  obtain ⟨t', ht', ht⟩ := Option.bind_eq_some_iff.mp h
  obtain ⟨hstep, hobs⟩ := stays_chrgSecc s t' ht'
  split at ht
  · exact (stays_readTx _ _ _).of hstep t ht
  · obtain rfl := Option.some.inj ht
    exact ⟨hstep, hobs⟩

/-- When the initialisation is done only the log matters. -/
theorem turnInv_done (hinv : InitInv s log) (hdone : s.initStep = .done) {r : Option SeccTurn}
    (hstays : Stays s r) (h : r = some t) : TurnInv t log := by
  obtain ⟨hstep, hobs⟩ := hstays t h
  obtain ⟨-, hbehind, -, -⟩ := hinv
  rw [hdone] at hstep
  have hnone : writeOf t.task.initStep = none := by
    rw [hstep]
    rfl
  refine ⟨⟨fun _ => .inr (.inr hstep), ?_, ?_, ?_⟩, ?_⟩
  · rw [hobs, List.append_nil, hstep]
    rwa [hdone] at hbehind
  · intro a ha
    rw [hnone] at ha
    cases ha
  · intro a k ha
    rw [hnone] at ha
    cases ha
  · intro _ a ha
    rw [hnone] at ha
    cases ha

/-- **`SeccSenario`** keeps the invariant. -/
theorem turnInv_seccSenario (hinv : InitInv s log) (hawake : s.asleep = false)
    (h : s.seccSenario = some t) : TurnInv t log := by
  unfold SeccTask.seccSenario at h
  split at h
  · obtain ⟨t', ht', rfl⟩ := Option.map_eq_some_iff.mp h
    have hrestart : InitInv (s.stopFault.enter .none) (log ++ [.entered .none]) := .restart rfl
    obtain ⟨hinv', hsends⟩ := turnInv_initSecc hrestart hawake ht'
    refine ⟨?_, hsends⟩
    rwa [List.append_assoc] at hinv'
  · split at h
    · exact turnInv_initSecc hinv hawake h
    · rename_i hdone
      exact turnInv_done hinv (by simpa using hdone) (stays_chrgSenario s) h

theorem turnInv_due (hinv : InitInv s log) (hawake : s.asleep = false) (h : s.due = some t) :
    TurnInv t log := by
  unfold SeccTask.due at h
  split at h
  · exact turnInv_initSecc hinv hawake h
  · rename_i hdone
    have hdone' : s.initStep = .done := by simpa using hdone
    simp only at h
    generalize (if 2 < s.seccReqStep + 1 then 0 else s.seccReqStep + 1) = step at h
    split at h
    · exact turnInv_done (s := { s with seccReqStep := step }) (hinv.congr rfl rfl rfl rfl) hdone'
        (stays_sendChrgReady _) h
    · split at h
      · exact turnInv_seccSenario (s := { s with seccReqStep := 0 }) (hinv.congr rfl rfl rfl rfl)
          hawake h
      · exact turnInv_done (s := { s with seccReqStep := step }) (hinv.congr rfl rfl rfl rfl) hdone'
          (stays_readTx _ _ _) h

/-! ## The end of a turn -/

theorem initInv_reboot (hinv : InitInv s log) (junk : ParsBuf) :
    InitInv (s.reboot junk).1 (log ++ (s.reboot junk).2) := by
  unfold SeccTask.reboot
  split
  · rwa [List.append_nil]
  · exact .restart rfl

/-- **What is due is sent.** -/
theorem initInv_send (h : TurnInv t log) (junk : ParsBuf) :
    InitInv (SeccTask.send t junk).1 (log ++ (SeccTask.send t junk).2) := by
  obtain ⟨hinv, hsends⟩ := h
  unfold SeccTask.send
  split
  · exact hinv
  · rw [← List.append_assoc]
    exact initInv_reboot hinv junk
  · simp only
    rw [← List.append_assoc, ← List.singleton_append, ← List.append_assoc]
    have hread := hinv.observe (x := .sentRead (led2Bed16 t.task.secc.readTx.reqAddr)
      (led2Bed16 t.task.secc.readTx.reqAddrLen)) rfl fun a b _ hx => by cases hx
    exact initInv_reboot (s := { t.task with plcRespWaitCnt := 1 })
      (hread.congr rfl rfl rfl rfl) junk
  · rename_i hwrite
    simp only
    rw [← List.append_assoc, ← List.singleton_append, ← List.append_assoc]
    have hsent : InitInv t.task
        (log ++ t.obs ++ [.sent (led2Bed16 t.task.secc.writeTx.reqAddr)]) := by
      refine hinv.observe rfl ?_
      intro a b ha hx
      have haddr := hsends hwrite a ha
      obtain rfl := SeccTaskObs.sent.inj hx
      rw [haddr, led2Bed16_led2Bed16]
      exact ⟨rfl, rfl⟩
    exact initInv_reboot (s := { t.task with plcRespWaitCnt := 1 })
      (hsent.congr rfl rfl rfl rfl) junk

/-! ## Responses

The one place where the condition is used. A response that is accepted as an acknowledgement
clears the flag whatever write it acknowledges; `timely` is what makes it that of the step. -/

theorem validSecc_sameTx {s : Secc} {chunk : List UInt8} {r : (Bool × Nat) × Secc}
    (h : s.validSecc chunk = some r) : s.SameTx r.2 := by
  have hstep : seccStep s (.chunk chunk) =
      some (r.2, if r.1.1 then [.accepted (r.2.src.bytes.take r.1.2)] else []) := by
    simp only [seccStep, h, Option.map_some]
  exact chunk_sameTx hstep

/-- **An acknowledgement in time** makes the chain longer. -/
theorem initInv_acked (hinv : InitInv s log)
    (htime : s.sendChkFlg = true → ∀ a, writeOf s.initStep = some a → .sent a ∈ sinceEntry log) :
    InitInv { s with sendChkFlg := false }
      (log ++ [.acked (led2Bed16 s.secc.writeTx.reqAddr)]) := by
  have hnext := hinv.observe (x := .acked (led2Bed16 s.secc.writeTx.reqAddr)) rfl
    fun a b _ hx => by cases hx
  refine ⟨hnext.asleep, hnext.behind, hnext.own, ?_⟩
  intro a k ha hk _
  cases hflag : s.sendChkFlg with
  | false => exact hnext.cleared a k ha hk hflag
  | true =>
    have hsent := htime hflag a ha
    obtain ⟨-, haddr⟩ := hinv.own a ha a hsent
    obtain ⟨k', before, hk', hsplit, hchain⟩ := hinv.behind
    obtain rfl : k' = k := Option.some.inj (hk'.symm.trans hk)
    have hcur : current (log ++ [.acked (led2Bed16 s.secc.writeTx.reqAddr)]) =
        before ++ (sinceEntry log ++ [.acked a]) := by
      rw [haddr, led2Bed16_led2Bed16, current_concat, hsplit, ← List.append_assoc]
      rfl
    rw [hcur, chain_succ ha hk]
    have hpair : [SeccTaskObs.sent a] ++ [.acked a] <+ sinceEntry log ++ [.acked a] :=
      (List.singleton_sublist.mpr hsent).append (List.Sublist.refl _)
    exact hchain.append hpair

theorem initInv_read {s' : SeccTask} {o : List SeccTaskObs} {bytes : List UInt8}
    (hinv : InitInv s log) (htime : timely s log (.chunk bytes) = true)
    (h : s.read bytes = some (s', o)) : InitInv s' (log ++ o) := by
  unfold SeccTask.read at h
  obtain ⟨r, hr, h⟩ := Option.bind_eq_some_iff.mp h
  obtain ⟨-, htx⟩ := validSecc_sameTx hr
  have hsame : ∀ s'' : SeccTask, s''.initStep = s.initStep → s''.sendChkFlg = s.sendChkFlg →
      s''.asleep = s.asleep → s''.secc.writeTx = r.2.writeTx → InitInv s'' log := by
    intro s'' hstep hflag hsleep htx'
    exact hinv.congr hstep hflag hsleep (by rw [htx', htx])
  simp only at h
  split at h
  · rename_i haccept
    split at h
    · obtain ⟨s'', hs'', heq⟩ := Option.map_eq_some_iff.mp h
      obtain ⟨rfl, rfl⟩ := Prod.mk.inj heq
      rw [List.append_nil]
      unfold SeccTask.takeRead at hs''
      simp only at hs''
      split at hs''
      · obtain ⟨data, -, rfl⟩ := Option.map_eq_some_iff.mp hs''
        exact hsame _ rfl rfl rfl rfl
      · cases hs''
    · split at h
      · rename_i hcode
        obtain ⟨rfl, rfl⟩ := Prod.mk.inj (Option.some.inj h)
        refine initInv_acked (s := { s with
          secc := r.2, rebootCnt := 0, plcRespWaitCnt := 0 }) (hsame _ rfl rfl rfl rfl) ?_
        intro hflag a ha
        have hstep : writeOf s.initStep = some a := ha
        unfold timely at htime
        simp only [hr, hstep] at htime
        -- here the acknowledgement counts for the step, and timely says whose it is
        have hset : s.sendChkFlg = true := hflag
        simpa [haccept, hcode, hset] using htime
      · obtain ⟨rfl, rfl⟩ := Prod.mk.inj (Option.some.inj h)
        rw [List.append_nil]
        exact hsame _ rfl rfl rfl rfl
  · obtain ⟨rfl, rfl⟩ := Prod.mk.inj (Option.some.inj h)
    rw [List.append_nil]
    exact hsame _ rfl rfl rfl rfl

end Turns

/-! ## Runs -/

/-- **One step of the two threads** keeps the invariant. -/
theorem initInv_step {s s' : SeccTask} {log o : List SeccTaskObs} {e : SeccTaskEvent}
    (hinv : InitInv s log) (htime : timely s log e = true)
    (h : seccTaskStep s e = some (s', o)) : InitInv s' (log ++ o) := by
  cases e with
  | tick junk =>
    simp only [seccTaskStep] at h
    split at h
    · obtain ⟨rfl, rfl⟩ := Prod.mk.inj (Option.some.inj h)
      rwa [List.append_nil]
    · rename_i hawake
      split at h
      · obtain ⟨rfl, rfl⟩ := Prod.mk.inj (Option.some.inj h)
        rw [List.append_nil]
        unfold SeccTask.await
        split
        · exact hinv.congr rfl rfl rfl rfl
        · exact hinv.congr rfl rfl rfl rfl
      · obtain ⟨t, ht, heq⟩ := Option.map_eq_some_iff.mp h
        have hsend := initInv_send (turnInv_due hinv (by simpa using hawake) ht) junk
        rwa [heq] at hsend
  | wake junk =>
    simp only [seccTaskStep] at h
    split at h
    · rename_i hasleep
      obtain ⟨t, ht, heq⟩ := Option.map_eq_some_iff.mp h
      obtain ⟨tx, haddr, rfl⟩ := writeTx_eq ht
      have hstep := hinv.asleep hasleep
      -- only `SECC_INIT_STEP_EVSER` waits for this write
      have hwrite : ∀ a, writeOf s.initStep = some a → a = 40027 := by
        intro a ha
        rcases hstep with hstep | hstep | hstep <;> rw [hstep] at ha <;> cases ha
        rfl
      have hturn : TurnInv ⟨.write, { s with
          asleep := false, secc := { s.secc with writeTx := tx } }, []⟩ log := by
        refine ⟨?_, ?_⟩
        · rw [List.append_nil]
          refine ⟨fun hfalse => (by cases hfalse), hinv.behind, ?_, hinv.cleared⟩
          intro a ha b hb
          obtain ⟨hb', -⟩ := hinv.own a ha b hb
          rw [hwrite a ha]
          exact ⟨hb'.trans (hwrite a ha), haddr⟩
        · intro _ a ha
          rw [hwrite a ha]
          exact haddr
      have hsend := initInv_send hturn junk
      rwa [heq] at hsend
    · obtain ⟨rfl, rfl⟩ := Prod.mk.inj (Option.some.inj h)
      rwa [List.append_nil]
  | chunk bytes => exact initInv_read hinv htime h
  | cardWait =>
    obtain ⟨rfl, rfl⟩ := Prod.mk.inj (Option.some.inj h)
    exact .restart rfl
  | setTx txData =>
    obtain ⟨rfl, rfl⟩ := Prod.mk.inj (Option.some.inj h)
    rw [List.append_nil]
    exact hinv.congr rfl rfl rfl rfl
  | setEvcc evccIdFlg =>
    obtain ⟨rfl, rfl⟩ := Prod.mk.inj (Option.some.inj h)
    rw [List.append_nil]
    exact hinv.congr rfl rfl rfl rfl

theorem initInv_start {s : SeccTask} (hstep : s.initStep = .none) : InitInv s [] := by
  refine ⟨fun _ => .inl hstep, ⟨0, [], by rw [hstep]; rfl, rfl, List.Sublist.refl _⟩, ?_, ?_⟩
  · intro a ha
    rw [hstep] at ha
    cases ha
  · intro a k ha
    rw [hstep] at ha
    cases ha

/-- **The initialisation is complete when it is done**, if no acknowledgement is counted for a
write that has not been sent. -/
theorem secc_init_complete {s₀ s : SeccTask} {log : List SeccTaskObs} (hstart : s₀.initStep = .none)
    (h : Reach seccTaskStep (fun s log e => timely s log e = true) s₀ s log)
    (hdone : s.initStep = .done) : InitComplete log := by
  have hinv := h.invariant (I := InitInv) (initInv_start hstart)
    fun hI hok hstep => initInv_step hI hok hstep
  exact chain_complete (hinv.chain (by rw [hdone]; rfl))

/-! ## Two initialisations -/

/-- The threads before anything has happened. -/
def SeccTask.zero : SeccTask where
  secc := .init .clear 0
  data := .zero
  txData := ⟨1, 0, 315, 2200, 60, 70⟩
  initStep := .none
  chrgStep := .none
  sendChkFlg := false
  plcRespWaitCnt := 0
  rebootCnt := 0
  bPlcConn := false
  evccIdFlg := false
  modelCO := false
  prcCnt := 0
  chargeCnt := 0
  seccReqStep := 0
  asleep := false

/-- The SECC answers a request to read. -/
def readResponse (ws : List UInt16) : SeccTaskEvent :=
  .chunk (withCrc (chrgId :: fcRead :: UInt8.ofNat (2 * ws.length) :: ws.flatMap sent16))

/-- The SECC acknowledges a write of `n` registers. -/
def writeResponse (addr n : UInt16) : SeccTaskEvent :=
  .chunk (withCrc (chrgId :: fcWrite :: (sent16 addr ++ sent16 n)))

/-- Turns of the requesting thread. -/
def ticks (n : Nat) : List SeccTaskEvent := List.replicate n (.tick .clear)

/-- The SECC is ready, and the first write goes out. -/
def initStart : List SeccTaskEvent := ticks 1 ++ [readResponse [1]] ++ ticks 2

/-- From `SECC_INIT_STEP_CHRGPRM` on: everything is acknowledged in time. -/
def initRest : List SeccTaskEvent :=
  ticks 1 ++ [writeResponse 40006 1] ++ ticks 2 ++ [writeResponse 40007 1] ++ ticks 2 ++
    [readResponse [1, 0, 0, 0, 0, 0]] ++ ticks 2 ++ [writeResponse 40009 1] ++ ticks 2 ++
    [readResponse [1]] ++ ticks 1

set_option maxRecDepth 20000 in
theorem secc_init_complete_once : ∃ s log,
    Reach seccTaskStep (fun s log e => timely s log e = true) .zero s log ∧ s.initStep = .done ∧
      InitComplete log := by
  let p : SeccTask → List SeccTaskObs → Bool := fun s _ => decide (s.initStep = .done)
  have hrun : (exec seccTaskStep timely .zero [] (initStart ++ [writeResponse 40001 1] ++ ticks 2 ++
      [.wake .clear, writeResponse 40027 4] ++ ticks 1 ++ initRest)).any
      (fun r => p r.1 r.2) = true := by decide +kernel
  obtain ⟨s, log, hreach, hp⟩ := exists_reach_of_exec hrun
  have hdone : s.initStep = .done := of_decide_eq_true hp
  exact ⟨s, log, hreach, hdone, secc_init_complete rfl hreach hdone⟩

set_option maxRecDepth 20000 in
/-- The first write is sent twice, and both are acknowledged: the second acknowledgement is counted
for the next write, which is never sent. -/
theorem secc_init_skips : ∃ s log, Always seccTaskStep .zero s log ∧ s.initStep = .done ∧
    ¬ InitComplete log := by
  let p : SeccTask → List SeccTaskObs → Bool := fun s log =>
    decide (s.initStep = .done) && !(current log).contains (.sent 40027)
  have hrun : (exec seccTaskStep (fun _ _ _ => true) .zero [] (initStart ++ ticks 11 ++
      [writeResponse 40001 1] ++ ticks 1 ++ [writeResponse 40001 1] ++ ticks 1 ++ initRest)).any
      (fun r => p r.1 r.2) = true := by decide +kernel
  obtain ⟨s, log, hreach, hp⟩ := exists_reach_of_exec hrun
  simp only [p, Bool.and_eq_true, decide_eq_true_eq, Bool.not_eq_true', List.contains_eq_mem,
    decide_eq_false_iff_not] at hp
  refine ⟨s, log, hreach.always, hp.1, ?_⟩
  intro h
  exact hp.2 (h.1.subset (by decide))

end ChargePoint
