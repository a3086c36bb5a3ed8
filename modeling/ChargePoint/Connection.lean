import ChargePoint.BootGate

/-!
# One connection, one conversation

`call_correlation` says that an answer is only dispatched for the CALL that is waited for. It
leaves open what happened to a CALL that never was answered: a timeout and a new connection both
forget it. Here the connection is in the picture. A timeout closes it, so on one connection no
CALL is ever given up: CALLs and answers alternate strictly, and a CALL that follows another one
follows its answer.

As everywhere over `step`, a tick and a receive step are one event each. `Interleave` takes them
apart.
-/

set_option autoImplicit false

namespace ChargePoint

open CStr SingleCall

def isConnected : Entry → Bool
  | .inl .connected => true
  | _ => false

/-- What was exchanged on the current connection. -/
def exchange (log : List Entry) : List (Act TxMsg) :=
  acts (Trace.observed (Trace.since isConnected log))

/-- Entries without a new connection go on with the exchange. -/
theorem exchange_append {log l : List Entry} (h : ∀ x ∈ l, isConnected x = false) :
    exchange (log ++ l) = exchange log ++ acts (Trace.observed l) := by
  unfold exchange
  rw [Trace.since_append h, Trace.observed_append, acts_append]

theorem exchange_entry {log : List Entry} {n : List Remark} {o : List Obs}
    (h : ∀ r ∈ n, r ≠ .connected) :
    exchange (log ++ (n.map .inl ++ o.map .inr)) = exchange log ++ acts o := by
  rw [exchange_append, Trace.observed_entry]
  intro x hx
  rcases List.mem_append.mp hx with hx | hx
  · obtain ⟨r, hr, rfl⟩ := List.mem_map.mp hx
    have hne := h r hr
    cases r with
    | connected => exact absurd rfl hne
    | ticked | made | gaveUp | wrote => rfl
  · obtain ⟨ob, -, rfl⟩ := List.mem_map.mp hx
    rfl

/-- Nobody sees a CALL given up. -/
theorem giveUp_not_mem_acts (o : List Obs) : .giveUp ∉ acts o := by
  intro h
  obtain ⟨ob, -, hact⟩ := List.mem_filterMap.mp h
  cases ob with
  | sent frame m c =>
    have hact : (if m.msgType = msgTypeCall then some (Act.call m) else none) = some .giveUp := hact
    split at hact
    · cases hact
    · cases hact
  | answered frame rx m c => cases hact
  | served | sampled | startRaised | stopRaised => cases hact

/-! ## Every run

The invariant ties the exchange to the client: while the connection lasts, the CALL that the
exchange leaves open is the one the client waits for. What forgets an open CALL without its
answer closes the connection, or opens a new one. -/

/-- **The exchange on the current connection**: strictly alternating, and as long as the
connection lasts its open CALL is the one that is waited for. -/
structure Conversation (s : Client) (log : List Entry) : Prop where
  legal : ∃ q, Legal (exchange log) q ∧ (s.bConnect = true → q = s.outstanding)

theorem Conversation.keep {s s' : Client} {log : List Entry} {n : List Remark} {o : List Obs}
    (h : Conversation s log) (hn : ∀ r ∈ n, r ≠ .connected) (ho : acts o = [])
    (hs : s'.bConnect = true → s.bConnect = true ∧ s'.outstanding = s.outstanding) :
    Conversation s' (log ++ (n.map .inl ++ o.map .inr)) := by
  obtain ⟨q, hlegal, hq⟩ := h.legal
  refine ⟨q, ?_, fun hb => ?_⟩
  · rw [exchange_entry hn, ho, List.append_nil]
    exact hlegal
  · obtain ⟨hc, hout⟩ := hs hb
    rw [hout]
    exact hq hc

theorem Client.Noted.conversation {s s' : Client} {log : List Entry} {n : List Remark}
    {o : List Obs} (h : s.Noted s' n o) (hi : Conversation s log) :
    Conversation s' (log ++ (n.map .inl ++ o.map .inr)) := by
  -- a step says nothing, opens a connection, sends a CALL or takes the answer to one
  cases h with
  | quiet f rx b hb hs hn ho =>
    subst hs hn ho
    exact hi.keep (by simp) rfl fun hb' => ⟨hb hb', rfl⟩
  | raised k hreq hs hn ho =>
    subst hs hn ho
    exact hi.keep (by simp) rfl fun hb => ⟨hb, rfl⟩
  | sampled k f ty hn hs ho =>
    subst hs hn ho
    exact hi.keep (by simp) rfl fun hb => ⟨hb, rfl⟩
  | connected hc hs hn ho =>
    subst hs hn ho
    refine ⟨none, ?_, fun _ => rfl⟩
    have hempty : exchange (log ++ [.inl .connected]) = [] := by
      unfold exchange
      rw [Trace.since_mark rfl]
      rfl
    have hnil : (log ++ ([Remark.connected].map .inl ++ ([] : List Obs).map .inr) : List Entry) =
        log ++ [.inl .connected] := rfl
    rw [hnil, hempty]
    exact .nil
  | idle k f t v w hc hsen hs hn ho =>
    subst hs hn ho
    exact hi.keep (by simp) rfl fun hb => ⟨hb, rfl⟩
  | gaveUp k w hc hw hsen hs hn ho =>
    subst hs hn ho
    exact hi.keep (by simp) rfl fun hb => by cases hb
  | failed k a f t tx d v hc hw hsen hg hb hs hn ho =>
    subst hs hn ho
    exact hi.keep (by simp) (a.samples_acts k s.cp) fun hb => by cases hb
  | called k a f t tx d v hc hw hsen hg hb hs hn ho =>
    subst hs hn ho
    obtain ⟨q, hlegal, hq⟩ := hi.legal
    -- a CALL is built only while none is waited for
    have hnone : q = none := (hq hc).trans (Client.outstanding_of_idle hw)
    subst hnone
    have hcall : (afterMakeOcppMsg tx).msg.msgType = msgTypeCall := (Call.build_header hb).1
    refine ⟨some (afterMakeOcppMsg tx).msg, ?_, fun _ => rfl⟩
    rw [exchange_entry (by simp), acts_append, a.samples_acts, List.nil_append]
    have hact : acts [Obs.sent (makeOcppMsg tx s.rx.msg.uniqueIdChar) (afterMakeOcppMsg tx).msg
        (a.finish (a.prepare k (s.cp.pulse f t)))] = [.call (afterMakeOcppMsg tx).msg] := by
      simp [acts, Obs.act, hcall]
    rw [hact]
    exact hlegal.call _
  | dropped rx d b hc hs hn ho =>
    subst hs hn ho
    exact hi.keep (by simp) rfl fun _ => ⟨hc, rfl⟩
  | answered frame rx d c hc hw hact hid hproc hs hn ho =>
    subst hs hn ho
    obtain ⟨q, hlegal, hq⟩ := hi.legal
    have hsome : q = some s.callTxMsg := (hq hc).trans (Client.outstanding_of_waiting hw)
    subst hsome
    refine ⟨none, ?_, fun _ => rfl⟩
    rw [exchange_entry (by simp)]
    exact hlegal.answer
  | served frame rx rx' d b cmd j c tx tx' sent hc hcmd hproc hs hsent hgate hn ho =>
    subst hs hn ho
    have hnone : acts (.served frame rx.msg :: sent) = [] := by
      unfold acts
      rw [List.filterMap_eq_nil_iff]
      intro ob hob
      rcases List.mem_cons.mp hob with rfl | hob
      · rfl
      · obtain ⟨f, m, rfl, hres⟩ := hsent ob hob
        simp [Obs.act, hres, msgTypeCall, msgTypeCallRes]
    exact hi.keep (by simp) hnone fun _ => ⟨hc, rfl⟩
  | env w c hw hs hn =>
    subst hs hn
    exact hi.keep (by simp) (EnvWrite.apply_acts hw) fun hb => ⟨hb, rfl⟩

theorem conversation {s : Client} {log : List Entry} (h : Journaled s log) :
    Conversation s log := by
  obtain ⟨st, now, h⟩ := h
  refine h.invariant (I := Conversation) ⟨none, .nil, fun hc => by cases hc⟩ ?_
  intro s log e s' l hi _ hstep
  obtain ⟨n, o, rfl, hnoted⟩ := journal_cases hstep
  exact hnoted.conversation hi

/-- A CALL goes out on a connection on which nothing is waited for. -/
theorem Client.Noted.sends {s s' : Client} {n : List Remark} {o : List Obs} (h : s.Noted s' n o)
    {frame : List Char} {m : TxMsg} {c : Charger} (hmem : .sent frame m c ∈ o)
    (hcall : m.msgType = msgTypeCall) :
    s.bConnect = true ∧ s.bWaitResFlg = false ∧ acts o = [.call m] ∧ ∀ r ∈ n, r ≠ .connected := by
  have hact := mem_acts_of_call hmem hcall
  cases h with
  | quiet f rx b hb hs hn ho => subst ho; cases hmem
  | raised k hreq hs hn ho => subst ho; cases hact
  | sampled k f ty hn hs ho => subst ho; cases hact
  | connected hc hs hn ho => subst ho; cases hmem
  | idle k f t v w hc hsen hs hn ho => subst ho; cases hmem
  | gaveUp k w hc hw hsen hs hn ho => subst ho; cases hmem
  | failed k a f t tx d v hc hw hsen hg hb hs hn ho =>
    subst ho
    rw [a.samples_acts] at hact
    cases hact
  | called k a f t tx d v hc hw hsen hg hb hs hn ho =>
    subst hn ho
    have hone : acts [Obs.sent (makeOcppMsg tx s.rx.msg.uniqueIdChar) (afterMakeOcppMsg tx).msg
        (a.finish (a.prepare k (s.cp.pulse f t)))] = [.call (afterMakeOcppMsg tx).msg] := by
      have htype : (afterMakeOcppMsg tx).msg.msgType = msgTypeCall := (Call.build_header hb).1
      simp [acts, Obs.act, htype]
    rw [acts_append, a.samples_acts, List.nil_append, hone] at hact
    cases List.mem_singleton.mp hact
    refine ⟨hc, hw, ?_, by simp⟩
    rw [acts_append, a.samples_acts, List.nil_append, hone]
  | dropped rx d b hc hs hn ho => subst ho; cases hmem
  | answered fr rx d c' hc hw hact hid hproc hs hn ho => subst ho; simp at hmem
  | served fr rx rx' d b cmd j c' tx tx' sent hc hcmd hproc hs hsent hgate hn ho =>
    subst ho
    rcases List.mem_cons.mp hmem with heq | hmem
    · cases heq
    · obtain ⟨f, m', heq, hres⟩ := hsent _ hmem
      cases heq
      rw [hres] at hcall
      cases hcall
  | env w c' hw hs hn =>
    rw [EnvWrite.apply_acts hw] at hact
    cases hact

/-- Every CALL of a run went out when the exchange on its connection was closed. -/
theorem calls_after_answers {s : Client} {log : List Entry} (h : Journaled s log) :
    Trace.Past (fun l x => ∀ frame m c, x = .inr (.sent frame m c) → m.msgType = msgTypeCall →
      Legal (exchange l) none) log := by
  obtain ⟨st, now, h⟩ := h
  induction h with
  | start => exact .nil
  | @step s s' log l e hpast _ hstep ih =>
    obtain ⟨n, o, rfl, hnoted⟩ := journal_cases hstep
    refine ih.append ?_
    intro l₁ x l₂ heq frame m c hx hcall
    subst hx
    have hmem : .sent frame m c ∈ o := by
      rw [← Trace.observed_entry n o, heq, Trace.mem_observed]
      exact List.mem_append_right l₁ List.mem_cons_self
    obtain ⟨hc, hw, hone, hn⟩ := hnoted.sends hmem hcall
    -- the CALL is the only act of the step, so none stands before it
    have hsplit : acts (Trace.observed l₁) = [] := by
      have hlater : acts (Trace.observed (.inr (.sent frame m c) :: l₂)) =
          .call m :: acts (Trace.observed l₂) := by
        simp [Trace.observed, acts, Obs.act, hcall]
      have hacts : acts o = acts (Trace.observed (l₁ ++ .inr (.sent frame m c) :: l₂)) := by
        rw [← heq, Trace.observed_entry]
      rw [hone, Trace.observed_append, acts_append, hlater] at hacts
      have hlen := congrArg List.length hacts
      simp only [List.length_append, List.length_cons, List.length_nil] at hlen
      exact List.eq_nil_of_length_eq_zero (by omega)
    have hold : ∀ y ∈ l₁, isConnected y = false := by
      intro y hy
      have hy : y ∈ n.map .inl ++ o.map .inr := heq ▸ List.mem_append_left _ hy
      rcases List.mem_append.mp hy with hy | hy
      · obtain ⟨r, hr, rfl⟩ := List.mem_map.mp hy
        have hne := hn r hr
        cases r with
        | connected => exact absurd rfl hne
        | ticked | made | gaveUp | wrote => rfl
      · obtain ⟨ob, -, rfl⟩ := List.mem_map.mp hy
        rfl
    obtain ⟨q, hlegal, hq⟩ := (conversation ⟨st, now, hpast⟩).legal
    have hnone : q = none := (hq hc).trans (Client.outstanding_of_idle hw)
    rw [exchange_append hold, hsplit, List.append_nil]
    exact hnone ▸ hlegal

/-- **One connection, one conversation.** In every run the CALLs and the dispatched answers on
the current connection alternate strictly, beginning with a CALL; while the connection lasts, an
open one is the one that is waited for. Between any two CALLs of the run there is a new
connection, or the first act after the earlier CALL is the dispatch of its own answer: no CALL is
repeated, given up or overtaken on the connection it went out on. -/
theorem one_conversation {s : Client} {log : List Entry} (h : Journaled s log) :
    (∃ q, Legal (exchange log) q ∧ (s.bConnect = true → q = s.outstanding)) ∧
    ∀ l l' l'' frame m c frame' m' c',
      log = l ++ .inr (.sent frame m c) :: (l' ++ .inr (.sent frame' m' c') :: l'') →
      m.msgType = msgTypeCall → m'.msgType = msgTypeCall →
      .inl .connected ∈ l' ∨ ∃ r, acts (Trace.observed l') = .answer m :: r := by
  refine ⟨(conversation h).legal, ?_⟩
  intro l l' l'' frame m c frame' m' c' hlog hcall hcall'
  by_cases hconn : .inl .connected ∈ l'
  · exact .inl hconn
  · right
    have hprefix :
        log = (l ++ .inr (.sent frame m c) :: l') ++ .inr (.sent frame' m' c') :: l'' := by
      rw [hlog, List.append_assoc, List.cons_append]
    have hlegal := calls_after_answers h _ _ _ hprefix frame' m' c' rfl hcall'
    have hold : ∀ y ∈ (.inr (.sent frame m c) :: l' : List Entry), isConnected y = false := by
      intro y hy
      rcases List.mem_cons.mp hy with rfl | hy
      · rfl
      · cases y with
        | inr ob => rfl
        | inl r =>
          cases r with
          | connected => exact absurd hy hconn
          | ticked | made | gaveUp | wrote => rfl
    have hfirst : acts (Trace.observed (.inr (.sent frame m c) :: l')) =
        .call m :: acts (Trace.observed l') := by
      simp [Trace.observed, acts, Obs.act, hcall]
    rw [exchange_append hold, hfirst] at hlegal
    rcases hlegal.answered rfl (giveUp_not_mem_acts _) with ⟨-, hq⟩ | hanswer
    · cases hq
    · exact hanswer

/-! ## A concrete run -/

/-- An entry with `p` stands before one with `q`. -/
def inOrder (p q : Entry → Bool) : List Entry → Bool
  | [] => false
  | x :: l => p x && l.any q || inOrder p q l

theorem inOrder_split {p q : Entry → Bool} {log : List Entry} (h : inOrder p q log = true) :
    ∃ l x l' y l'', log = l ++ x :: (l' ++ y :: l'') ∧ p x = true ∧ q y = true := by
  induction log with
  | nil => cases h
  | cons z log ih =>
    rcases Bool.or_eq_true_iff.mp h with hz | hrest
    · obtain ⟨hp, hany⟩ := Bool.and_eq_true_iff.mp hz
      obtain ⟨y, hy, hq⟩ := List.any_eq_true.mp hany
      obtain ⟨l', l'', rfl⟩ := List.append_of_mem hy
      exact ⟨[], z, l', y, l'', rfl, hp, hq⟩
    · obtain ⟨l, x, l', y, l'', rfl, hp, hq⟩ := ih hrest
      exact ⟨z :: l, x, l', y, l'', rfl, hp, hq⟩

/-- The entry is a CALL that goes out. -/
def isCallOut : Entry → Bool
  | .inr (.sent _ m _) => m.msgType = msgTypeCall
  | _ => false

theorem isCallOut_sent {e : Entry} (h : isCallOut e = true) :
    ∃ frame m c, e = .inr (.sent frame m c) ∧ m.msgType = msgTypeCall := by
  cases e with
  | inl n => cases h
  | inr ob =>
    cases ob with
    | sent frame m c =>
      simp only [isCallOut, decide_eq_true_eq] at h
      exact ⟨frame, m, c, rfl, h⟩
    | answered | served | sampled | startRaised | stopRaised => cases h

set_option maxRecDepth 20000 in
/-- The boot and its answer stand before the StatusNotification. -/
theorem one_conversation_report : ∃ s log l l' l'' frame m c frame' m' c', Journaled s log ∧
    log = l ++ .inr (.sent frame m c) :: (l' ++ .inr (.sent frame' m' c') :: l'') ∧
    (.inl .connected ∈ l' ∨ ∃ r, acts (Trace.observed l') = .answer m :: r) := by
  have hrun : (Trace.exec journal (fun _ _ _ => true) (Client.init 3 0) [] reportRun).any
      (fun r => inOrder isCallOut isCallOut r.2) = true := by decide +kernel
  obtain ⟨s, log, h, hp⟩ :=
    exists_journaled_of_exec (p := fun _ log => inOrder isCallOut isCallOut log) hrun
  obtain ⟨l, x, l', y, l'', hlog, hx, hy⟩ := inOrder_split hp
  obtain ⟨frame, m, c, rfl, hcall⟩ := isCallOut_sent hx
  obtain ⟨frame', m', c', rfl, hcall'⟩ := isCallOut_sent hy
  have hbetween := (one_conversation h).2 l l' l'' frame m c frame' m' c' hlog hcall hcall'
  exact ⟨s, log, l, l', l'', frame, m, c, frame', m', c', h, hlog, hbetween⟩

end ChargePoint
