/-
  File:      Beacon/Delivery/Undeliverable.lean
  Subject:   Jobs that no server can deliver.

  A policy may name any channel, but every worker has the one channel `telegram`. A job for another
  channel is claimed like any job and fails for good at its first report. A server without a
  Telegram file has no worker at all: its jobs wait, and a later server with one finds them due.

  * `undeliverable_of_run` -- **a job for another channel is never sent**, and how it ends;
  * `waiting_of_run` -- **servers without Telegram leave every job as it was queued**.
-/
import Beacon.Delivery.Restarts

namespace Beacon

open Foundation

/-! ## 1. Other channels -/

/-- The text of the failure of a job whose channel the dispatcher does not have. -/
def notConfigured : String := "notification channel is not configured"

/-- The row of a job that no worker delivers. -/
structure NotificationRow.Stranded (r : NotificationRow) : Prop where
  sentAt : r.sentAt = none
  status : r.status = .pending ∨ r.status = .inFlight ∨
    (r.status = .failed ∧ r.retryable = false ∧ r.lastError = some notConfigured)

/-- The worker has got no answer for a job of another channel. -/
def ServerProcess.Unanswered (x : ServerProcess) : Prop :=
  ∀ now left job answer, x.phase = .reporting now left job answer →
    job.channel ≠ TelegramChannel.name → answer = none

theorem unanswered_of_phase {x : ServerProcess}
    (h : ∀ now left job answer, x.phase ≠ .reporting now left job answer) : x.Unanswered :=
  fun now left job answer hphase => absurd hphase (h now left job answer)

namespace Servers

variable {ι : Type} [DecidableEq ι] [Formats] {s s' : Servers ι} {action : ServerAction ι}
  {started : ServerConfig → Host → Prop}

theorem unanswered_did (hd : Did s action s') (hsound : s.Sound started)
    (h : ∀ p x, s.process p = some x → x.Unanswered) :
    ∀ p x, s'.process p = some x → x.Unanswered := by
  intro q y hy
  cases hd with
  | run hp hlock hprepare =>
    refine kept_set (s := s) hy rfl h fun z hz => ?_
    cases hz
    exact unanswered_of_phase fun _ _ _ _ he => Phase.noConfusion he
  | kill hp => exact kept_set (s := s) hy rfl h fun z hz => by cases hz
  | @spawn p _ x _ _ hp | @quiet p _ x hp | @listen p _ x hp | @refuse _ p x hp =>
    refine kept_set (s := s) hy rfl h fun z hz => ?_
    cases hz
    exact h p x hp
  | accept | reject => exact h q y hy
  | deliver | finish | abort | nothing | claim | report | die =>
    refine kept_set (s := s) hy rfl h fun z hz => ?_
    cases hz
    exact unanswered_of_phase fun _ _ _ _ he => Phase.noConfusion he
  | @send p post now left job x worker answer hp hw hphase ha =>
    refine kept_set (s := s) hy rfl h fun z hz => ?_
    cases hz
    intro t l j a hreporting hchannel
    cases hreporting
    rw [ha, NotificationDispatcher.attempt, if_neg]
    rw [NotificationDispatcher.configured, ((hsound.process p x hp).worker worker hw).1]
    simpa using hchannel.symm

omit [DecidableEq ι] [Formats] in
/-- What a recorded answer does to a row of another channel. -/
theorem stranded_outcome {d : NotificationDispatcher} {now : DateTime} {job : NotificationJob}
    {answer : Option SendResult} {r r' : NotificationRow} (h : r.Stranded)
    (hanswer : job.id = r.id → answer = none) (hstep : RowStep (d.outcome now job answer) r r') :
    r'.Stranded := by
  generalize hop : d.outcome now job answer = op at hstep
  cases hstep with
  | same => exact h
  | claim now b _ hdue =>
    rcases answer with _ | _ | _ <;> cases hop
  | complete t _ hs =>
    obtain ⟨hok, hid⟩ := NotificationDispatcher.outcome_eq_complete hop
    rw [hanswer hid.symm] at hok
    cases hok
  | fail update next _ hs hnext =>
    have hid : job.id = r.id := by
      rcases answer with _ | error | _
      · exact (Op.fail.inj hop).1
      · exact (Op.fail.inj hop).1
      · cases hop
    rw [hanswer hid] at hop
    obtain ⟨_, rfl⟩ := Op.fail.inj hop
    exact ⟨h.sentAt, .inr (.inr ⟨rfl, rfl, rfl⟩)⟩

/-- The rows of other channels are stranded. -/
def Strands (s : Servers ι) : Prop :=
  ∀ id r, s.db.notifications.get? id = some r → r.channel ≠ TelegramChannel.name → r.Stranded

omit [DecidableEq ι] in
/-- A worker that reports on a row of another channel has no answer. -/
theorem unanswered_row (hsound : s.Sound started)
    (h : ∀ p x, s.process p = some x → x.Unanswered) {p : ι} {x : ServerProcess} {now : DateTime}
    {left : Nat} {job : NotificationJob} {answer : Option SendResult} (hp : s.process p = some x)
    (hphase : x.phase = .reporting now left job answer) {id : Nat} {r : NotificationRow}
    (hr : s.db.notifications.get? id = some r) (hchannel : r.channel ≠ TelegramChannel.name)
    (hid : job.id = r.id) : answer = none := by
  have hjob : job ∈ (s.view.phase p).job? := by
    rw [phase_view hp, hphase]
    rfl
  obtain ⟨row, hrow, hmessage⟩ := hsound.carried.held p job hjob
  have hsame : row = r := by
    have hrow' : s.db.notifications.get? job.id = some row := hrow
    rw [hid, (NotificationTable.get?_eq_some.mp hr).2, hr] at hrow'
    exact (Option.some.inj hrow').symm
  have hcarried : r.channel = job.channel := by
    rw [← hsame]
    exact congrArg Message.channel hmessage
  exact h p x hp now left job answer hphase (by rw [← hcarried]; exact hchannel)

theorem strands_did (hd : Did s action s') (hsound : s.Sound started)
    (h : ∀ p x, s.process p = some x → x.Unanswered) (hs : s.Strands) : s'.Strands := by
  intro id r' hr' hchannel
  -- a row after a call, from the row before it
  have hcall : ∀ store op, (op.perform store s.db).2.notifications.get? id = some r' →
      (∀ r, s.db.notifications.get? id = some r → r.channel ≠ TelegramChannel.name → r.Stranded →
        RowStep op r r' → r'.Stranded) → r'.Stranded := by
    intro store op hop hstep
    rcases row_origin store op hop with ⟨r, hr, hrow⟩ | ⟨m, at', rfl⟩
    · have hsame : r.channel ≠ TelegramChannel.name := by
        have hkept : r'.channel = r.channel :=
          congrArg (fun m : Nat × Message => m.2.channel) hrow.fixed
        rw [← hkept]
        exact hchannel
      exact hstep r hr hsame (hs id r hr hsame) hrow
    · exact ⟨rfl, .inl rfl⟩
  cases hd with
  | accept =>
    refine hcall _ _ hr' fun r hr _ hstranded hstep => ?_
    cases hstep
    exact hstranded
  | nothing | claim =>
    refine hcall _ _ hr' fun r hr _ hstranded hstep => ?_
    cases hstep with
    | same => exact hstranded
    | claim => exact ⟨hstranded.sentAt, .inr (.inl rfl)⟩
  | report hp hw hphase =>
    exact hcall _ _ hr' fun r hr hc hstranded hstep =>
      stranded_outcome hstranded (unanswered_row hsound h hp hphase hr hc) hstep
  | die hp hw hphase =>
    exact hcall _ _ hr' fun r hr hc hstranded hstep =>
      stranded_outcome hstranded (unanswered_row hsound h hp hphase hr hc) hstep
  | _ => exact hs id r' hr' hchannel

end Servers

/-- **A job for another channel is never sent.** In every state any servers reach, for every job
    whose channel is not `telegram`: there has been no call of `channel.send` for it, it is not
    sent, and if it has failed then for good, with the one text that says why. -/
theorem undeliverable_of_run {ι : Type} [DecidableEq ι] [Formats]
    (actions : List (ServerAction ι)) :
    let s := (servers ι).run actions
    ∀ r ∈ s.db.notifications.rows, r.channel ≠ TelegramChannel.name →
      s.sendsFor r.id = [] ∧ r.sentAt = none ∧
        (r.status = .pending ∨ r.status = .inFlight ∨
          (r.status = .failed ∧ r.retryable = false ∧
            r.lastError = some "notification channel is not configured")) := by
  intro s r hr hchannel
  have hinv := Machine.invariant (M := servers ι)
    (I := fun s => s.Sound (fun _ _ => True) ∧
      (∀ p x, s.process p = some x → x.Unanswered) ∧ s.Strands)
    ⟨Servers.sound_init, fun _ _ h => (by cases h), fun _ _ h => (by cases h)⟩
    (fun s a s' h hs => ⟨Servers.sound_step h.1 (fun _ _ _ _ => trivial) hs,
      Servers.unanswered_did (Servers.did_of_step hs) h.1 h.2.1,
      Servers.strands_did (Servers.did_of_step hs) h.1 h.2.1 h.2.2⟩) actions
  obtain ⟨hsound, _, hstrands⟩ := hinv
  have hget := NotificationTable.get?_of_mem hr
  obtain ⟨hsent, hstatus⟩ := hstrands r.id r hget hchannel
  refine ⟨?_, hsent, hstatus⟩
  refine List.filter_eq_nil_iff.mpr fun c hc hid => hchannel ?_
  -- what is sent is for `telegram`, and carries the message of its row
  obtain ⟨row, hrow, hmessage⟩ := hsound.carried.sent c hc
  have hrow' : s.db.notifications.get? c.job.id = some row := hrow
  rw [of_decide_eq_true hid, hget] at hrow'
  cases hrow'
  exact (congrArg Message.channel hmessage).trans (hsound.named c hc)

/-! ## 2. No Telegram file -/

/-- A row as it was queued. -/
structure NotificationRow.Untouched (r : NotificationRow) : Prop where
  status : r.status = .pending
  attempts : r.attempts = 0
  unclaimed : r.claimedAt = none
  unsent : r.sentAt = none

namespace Servers

variable {ι : Type} [DecidableEq ι] [Formats] {s s' : Servers ι} {action : ServerAction ι}

/-- A server that was started without a Telegram file. -/
def Silent (config : ServerConfig) (_ : Host) : Prop := config.telegramConfig = none

omit [Formats] in
theorem telegram_of_silent {x : ServerProcess} (h : x.Sound Silent) : x.telegram = none := by
  obtain ⟨host, hsilent, hprepare⟩ := h.prepared
  exact (ServerConfig.prepare_ok hprepare).1.mpr hsilent

/-- No worker, and nothing but queued rows. -/
structure Waits (s : Servers ι) : Prop where
  worker : ∀ p x, s.process p = some x → x.worker = none
  sends : s.sends = []
  rows : ∀ id r, s.db.notifications.get? id = some r → r.Untouched

theorem waits_did (hd : Did s action s') (hsound : s.Sound Silent) (h : s.Waits) : s'.Waits := by
  have hnone : ∀ {p x worker}, s.process p = some x → x.worker = some worker → False :=
    fun hp hw => by
      rw [h.worker _ _ hp] at hw
      cases hw
  have hmove : ∀ {t : Servers ι} {p : ι} {x : Option ServerProcess}, t.process = s.process →
      t.sends = s.sends → t.db = s.db → (∀ y, x = some y → y.worker = none) → (t.set p x).Waits := by
    intro t p x hprocess hsends hdb hx
    constructor
    · exact fun q y hy => kept_set hy hprocess h.worker hx
    · rw [set_sends, hsends]
      exact h.sends
    · rw [set_db, hdb]
      exact h.rows
  cases hd with
  | run => exact hmove rfl rfl rfl fun y hy => by cases hy; rfl
  | kill => exact hmove rfl rfl rfl fun y hy => by cases hy
  | @spawn p _ x _ _ hp _ ht =>
    rw [telegram_of_silent (hsound.process p x hp)] at ht
    cases ht
  | @quiet p _ x hp | @listen p _ x hp | @refuse _ p x hp | @deliver p _ x hp | @finish p _ x hp
  | @abort p x hp =>
    refine hmove rfl rfl rfl fun y hy => ?_
    cases hy
    exact h.worker p x hp
  | @accept p env event x hp =>
    refine ⟨h.worker, h.sends, fun id r' hr' => ?_⟩
    rcases row_origin x.store (.accept (env.call event)) hr' with ⟨r, hr, hstep⟩ | ⟨m, at', rfl⟩
    · cases hstep
      exact h.rows id r' hr
    · exact ⟨rfl, rfl, rfl, rfl⟩
  | reject => exact h
  | nothing hp hw | claim hp hw | send hp hw | report hp hw | die hp hw =>
    exact (hnone hp hw).elim

end Servers

/-- **Servers without a Telegram file leave every job as it was queued.** In every state that such
    servers reach, nothing has been sent, and every job is pending, without an attempt, and due
    for the first worker that looks, whatever its attempts and the time. -/
theorem waiting_of_run {ι : Type} [DecidableEq ι] [Formats] (actions : List (ServerAction ι))
    (h : ∀ p config host, .run p config host ∈ actions → config.telegramConfig = none) :
    let s := (servers ι).run actions
    s.sends = [] ∧ ∀ r ∈ s.db.notifications.rows, r.status = .pending ∧ r.attempts = 0 ∧
      ∀ attempts now, 0 < attempts →
        r.due attempts now.toRfc3339 (staleBefore now).toRfc3339 = true := by
  intro s
  have hinv := Machine.invariant_along (M := servers ι)
    (I := fun s => s.Sound Servers.Silent ∧ s.Waits)
    (P := fun _ action => Servers.Starts Servers.Silent action)
    ⟨Servers.sound_init, fun _ _ h => (by cases h), rfl, fun _ _ h => (by cases h)⟩
    (fun s a s' hI ha hs => ⟨Servers.sound_step hI.1 ha hs,
      Servers.waits_did (Servers.did_of_step hs) hI.1 hI.2⟩)
    (Machine.along_of_mem fun action hin p config host he => h p config host (he ▸ hin))
  obtain ⟨_, _, hsends, hrows⟩ := hinv
  refine ⟨hsends, fun r hr => ?_⟩
  have hwaiting := hrows r.id r (NotificationTable.get?_of_mem hr)
  refine ⟨hwaiting.status, hwaiting.attempts, fun attempts now hpos => ?_⟩
  refine due_iff.mpr ⟨?_, .inl hwaiting.status⟩
  rw [hwaiting.attempts]
  exact hpos

namespace Sample

/-- A server without a Telegram file takes an alert. -/
def silentServer : List (ServerAction Unit) :=
  [.run () { telegramServer 3 with telegramConfig := none } telegramHost, .spawn () telegramHost,
    .listen () telegramHost,
    .request () ⟨true, none, ⟨1767225601000000000⟩, ⟨1767225601000000000⟩⟩
      (event id1 "2026-01-01T00:00:00Z" .firing .warning), .deliver () ⟨1767225660000000000⟩]

end Sample

/-- The job of this alert, an hour later. -/
theorem waiting_of_run_silent :
    let s := (@servers Unit _ Sample.formats).run Sample.silentServer
    s.sends = [] ∧ ∃ r ∈ s.db.notifications.rows, r.attempts = 0 ∧
      r.due 3 "2026-01-01T01:00:00+00:00" "2026-01-01T00:55:00+00:00" = true := by
  intro s
  have hrow : s.db.notifications.rows ≠ [] := by decide +kernel
  obtain ⟨r, hr⟩ := List.exists_mem_of_ne_nil _ hrow
  have hsilent : ∀ p config host, .run p config host ∈ Sample.silentServer →
      config.telegramConfig = none := by
    intro p config host h
    simp only [Sample.silentServer, List.mem_cons, ServerAction.run.injEq, reduceCtorEq,
      List.not_mem_nil, or_false] at h
    rw [h.2.1]
  obtain ⟨hsends, hrows⟩ := @waiting_of_run Unit _ Sample.formats Sample.silentServer hsilent
  obtain ⟨_, hattempts, hdue⟩ := hrows r hr
  exact ⟨hsends, r, hr, hattempts, hdue 3 ⟨1767229200000000000⟩ (by decide)⟩

end Beacon
