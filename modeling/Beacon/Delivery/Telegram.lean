/-
  File:      Beacon/Delivery/Telegram.lean
  Subject:   The channel `telegram` (`notification.rs`): `TelegramChannel::send`.

  The channel posts the payload of a job and judges the status of the answer: 2xx is success, 429
  and 5xx are failures that are tried again, any other status is one that is not; a request without
  an answer is tried again. So if the Bot API answers 4xx to a text it cannot take, the job of such
  a text is lost. Whether there is such a job is decided where its text is rendered
  (`MessageLengths.lean`), and under formats that always fit there is none.

  * `run_performAll` -- the tables of a fleet are those of a run of calls;
  * `carried_run` -- dispatchers hold and send the messages of rows;
  * `sendable_of_sent` -- **what cannot be sent is never sent**, over every run;
  * `lost_of_refused` -- **its first answer other than 429 loses the job for ever**;
  * `sendable_of_run` -- **under formats that always fit, whatever is sent can be sent**.
-/
import Beacon.Delivery.Reclaim
import Beacon.Delivery.Worker
import Beacon.MessageLengths
import Beacon.Server.Routing

namespace Beacon

open Foundation

/-! ## 1. The channel -/

/-- The status of an answer, and its text. -/
structure HttpStatus where
  code : Nat
  text : String
  deriving DecidableEq, Repr

def HttpStatus.isSuccess (status : HttpStatus) : Bool := 200 ≤ status.code && status.code < 300

def HttpStatus.isClientError (status : HttpStatus) : Bool :=
  400 ≤ status.code && status.code < 500

def HttpStatus.isServerError (status : HttpStatus) : Bool :=
  500 ≤ status.code && status.code < 600

theorem HttpStatus.clientError {status : HttpStatus} (h : status.isClientError = true) :
    status.isSuccess = false ∧ status.isServerError = false := by
  simp only [isClientError, isSuccess, isServerError, Bool.and_eq_true, Bool.and_eq_false_iff,
    decide_eq_true_eq, decide_eq_false_iff_not] at h ⊢
  omega

/-- A request: the URL and the body posted to it, and the status of the answer, if one arrives. -/
abbrev Post := String → Json → Option HttpStatus

structure TelegramChannel where
  token : String
  chatId : String
  endpoint : String

namespace TelegramChannel

def name : String := "telegram"

def sendMessageUrl (channel : TelegramChannel) : String :=
  channel.endpoint ++ "/bot" ++ channel.token ++ "/sendMessage"

/-- The body of `sendMessage`; `serde_json` sorts its members. -/
def body (channel : TelegramChannel) (job : NotificationJob) : Json :=
  .obj [("chat_id", .str channel.chatId), ("disable_web_page_preview", .bool true),
    ("text", .str job.payload)]

def send (channel : TelegramChannel) (post : Post) (job : NotificationJob) : SendResult :=
  match post channel.sendMessageUrl (channel.body job) with
  | none => .error (.other "send Telegram notification")
  | some status =>
    if status.isSuccess then .ok ()
    else
      let message := "Telegram returned HTTP " ++ status.text
      if status.code = 429 || status.isServerError then .error (.temporary message)
      else .error (.permanent message)

end TelegramChannel

/-- The Bot API answers 4xx to a text that cannot be sent. -/
def RefusesUnsendable (post : Post) : Prop :=
  ∀ (channel : TelegramChannel) (job : NotificationJob), ¬ Sendable job.payload →
    ∀ status ∈ post channel.sendMessageUrl (channel.body job), status.isClientError = true

namespace TelegramChannel

variable {channel : TelegramChannel} {post : Post} {job : NotificationJob}

/-- **What is sent can be sent.** -/
theorem sendable_of_ok (hpost : RefusesUnsendable post) (h : channel.send post job = .ok ()) :
    Sendable job.payload := by
  by_contra hno
  unfold send at h
  cases hans : post channel.sendMessageUrl (channel.body job) with
  | none =>
    rw [hans] at h
    cases h
  | some status =>
    obtain ⟨hfail, hserver⟩ := HttpStatus.clientError (hpost channel job hno status hans)
    simp only [hans, hfail, hserver, Bool.false_eq_true, if_false] at h
    split at h <;> cases h

/-- **A refusal other than 429 is a permanent failure.** -/
theorem send_refused {status : HttpStatus} (hpost : RefusesUnsendable post)
    (hno : ¬ Sendable job.payload)
    (hans : post channel.sendMessageUrl (channel.body job) = some status)
    (hcode : status.code ≠ 429) :
    channel.send post job = .error (.permanent ("Telegram returned HTTP " ++ status.text)) := by
  obtain ⟨hfail, hserver⟩ := HttpStatus.clientError (hpost channel job hno status hans)
  simp [send, hans, hfail, hserver, hcode]

end TelegramChannel

/-! ## 2. The messages of a fleet -/

/-- The job carries the message of its row. -/
def Db.Carries (db : Db) (job : NotificationJob) : Prop :=
  ∃ r, db.notifications.get? job.id = some r ∧ r.toMessage = job.message

theorem carries_claimedJob {db : Db} {row : NotificationRow}
    (h : db.notifications.get? row.id = some row) : db.Carries row.claimedJob := ⟨row, h, rfl⟩

/-- Jobs that are held or have been sent carry the messages of their rows. -/
structure Workers.Carried {ι : Type} (s : Workers ι) : Prop where
  held : ∀ i, ∀ job ∈ (s.phase i).job?, s.db.Carries job
  sent : ∀ c ∈ s.sends, s.db.Carries c.job

section Runs

variable [Formats] {store : ServerEventStore}

theorem Db.Carries.perform {db : Db} {job : NotificationJob} (h : db.Carries job) (op : Op) :
    (op.perform store db).2.Carries job := by
  obtain ⟨r, hr, hmessage⟩ := h
  obtain ⟨r', hr', hstep⟩ := row_step store op hr
  exact ⟨r', hr', (congrArg Prod.snd hstep.fixed).trans hmessage⟩

variable {ι : Type} [DecidableEq ι] {fleet : Fleet ι} {s s' : Workers ι} {a : WorkerAction ι}

theorem carries_step (h : s.Step store fleet a s') {job : NotificationJob}
    (hjob : s.db.Carries job) : s'.db.Carries job := by
  rcases step_db h with hdb | ⟨op, _, hdb⟩ <;> rw [hdb]
  · exact hjob
  · exact hjob.perform op

omit [Formats] in
/-- A dispatcher that moves changes its own job only. -/
theorem job?_goto {t : Workers ι} {i j : ι} {p : Phase} {job : NotificationJob}
    (h : job ∈ ((t.goto j p).phase i).job?) :
    job ∈ (t.phase i).job? ∨ (j = i ∧ job ∈ p.job?) := by
  rcases phase_goto (Eq.refl ((t.goto j p).phase i)) with hold | ⟨hj, hnew⟩
  · rw [← hold] at h
    exact .inl h
  · rw [← hnew] at h
    exact .inr ⟨hj, h⟩

/-- A job in hand after a step was in hand before it, or its row has just been claimed. -/
theorem job?_step (h : s.Step store fleet a s') {i : ι} {job : NotificationJob}
    (hjob : job ∈ (s'.phase i).job?) :
    job ∈ (s.phase i).job? ∨
      ∃ row, s.db.notifications.get? row.id = some row ∧ job = row.claimedJob := by
  cases h with
  | accept call => exact .inl hjob
  | start j now limit hp => exact .inl ((job?_goto hjob).resolve_right nofun)
  | finish j now left hp hn => exact .inl ((job?_goto hjob).resolve_right nofun)
  | crash j => exact .inl ((job?_goto hjob).resolve_right nofun)
  | claim j now left row hp hrow =>
    rcases job?_goto hjob with hold | ⟨_, hin⟩
    · exact .inl hold
    · cases hin
      exact .inr ⟨row, (firstDue_eq_some hrow).1, rfl⟩
  | send j now left job' answer result hp hr =>
    rcases job?_goto hjob with hold | ⟨rfl, hin⟩
    · exact .inl hold
    · cases hin
      exact .inl (by rw [hp]; rfl)
  | report j now left job' answer p hp hnext =>
    rcases job?_goto hjob with hold | ⟨_, hin⟩
    · exact .inl hold
    · rcases hnext with ⟨rfl, _⟩ | ⟨rfl, _⟩ <;> cases hin

/-- A step sends a job in hand, or nothing. -/
theorem sends_step (h : s.Step store fleet a s') {c : SendCall} (hc : c ∈ s'.sends) :
    c ∈ s.sends ∨ ∃ i, c.job ∈ (s.phase i).job? := by
  cases h with
  | send i now left job answer result hp hr =>
    rcases List.mem_append.mp hc with hold | hnew
    · exact .inl hold
    · obtain ⟨answered, _, rfl⟩ := Option.map_eq_some_iff.mp (Option.mem_toList.mp hnew)
      exact .inr ⟨i, by rw [hp]; rfl⟩
  | _ => exact .inl hc

theorem carried_step (h : s.Carried) (hs : s.Step store fleet a s') : s'.Carried := by
  constructor
  · intro i job hjob
    rcases job?_step hs hjob with hold | ⟨row, hrow, rfl⟩
    · exact carries_step hs (h.held i job hold)
    · exact carries_step hs (carries_claimedJob hrow)
  · intro c hc
    rcases sends_step hs hc with hold | ⟨i, hjob⟩
    · exact carries_step hs (h.sent c hold)
    · exact carries_step hs (h.held i c.job hjob)

variable (store) (fleet) in
/-- **Dispatchers hold and send the messages of rows**, in every reachable state. -/
theorem carried_run (as : List (WorkerAction ι)) : ((workers store fleet).run as).Carried :=
  Machine.invariant (M := workers store fleet) (I := Workers.Carried)
    { held := fun _ _ h => by cases h
      sent := fun _ h => by cases h }
    (fun _ _ _ h hs => carried_step h (step_cases hs)) as

variable (store) (fleet) in
/-- **The tables of a fleet are those of a run of calls.** -/
theorem run_performAll (as : List (WorkerAction ι)) :
    ∃ ops, ((workers store fleet).run as).db = performAll store .empty ops := by
  refine Machine.invariant (M := workers store fleet)
    (I := fun s => ∃ ops, s.db = performAll store .empty ops) ⟨[], rfl⟩ ?_ as
  intro s a s' hI hs
  obtain ⟨ops, hops⟩ := hI
  rcases step_db (step_cases hs) with hdb | ⟨op, _, hdb⟩
  · exact ⟨ops, hdb.trans hops⟩
  · exact ⟨ops ++ [op], by rw [hdb, hops, performAll_snoc]⟩

end Runs

/-! ## 3. Refused texts -/

section Refused

variable {ι : Type} [DecidableEq ι]

/-- A call of the channel `telegram` answers as `TelegramChannel::send` does, over a Bot API that
    refuses what cannot be sent. -/
def Workers.Answered (s : Workers ι) : WorkerAction ι → Prop
  | .send i answer => ∀ now left job, s.phase i = .sending now left job →
      job.channel = TelegramChannel.name →
      ∃ (channel : TelegramChannel) (post : Post), RefusesUnsendable post ∧
        answer = channel.send post job
  | _ => True

/-- What is sent, or about to be recorded as sent, can be sent. -/
structure Workers.SentSendable (s : Workers ι) : Prop where
  carried : s.Carried
  answers : ∀ i now left job, s.phase i = .reporting now left job (some (.ok ())) →
    job.channel = TelegramChannel.name → Sendable job.payload
  rows : ∀ id r, s.db.notifications.get? id = some r → r.status = .sent →
    r.channel = TelegramChannel.name → Sendable r.payload

variable [Formats] {store : ServerEventStore} {fleet : Fleet ι} {s s' : Workers ι}
  {a : WorkerAction ι}

theorem answers_step (h : s.SentSendable) (ha : s.Answered a) (hs : s.Step store fleet a s') :
    ∀ i now left job, s'.phase i = .reporting now left job (some (.ok ())) →
      job.channel = TelegramChannel.name → Sendable job.payload := by
  intro i now left job hp hchannel
  have hold : s.phase i = .reporting now left job (some (.ok ())) → Sendable job.payload :=
    fun hp => h.answers i now left job hp hchannel
  cases hs with
  | accept call => exact hold hp
  | start j t limit hq => exact hold ((phase_goto hp).resolve_right nofun)
  | finish j t l hq hn => exact hold ((phase_goto hp).resolve_right nofun)
  | crash j => exact hold ((phase_goto hp).resolve_right nofun)
  | claim j t l row hq hrow => exact hold ((phase_goto hp).resolve_right nofun)
  | report j t l job' answer p hq hnext =>
    rcases phase_goto hp with hstays | ⟨_, hmoved⟩
    · exact hold hstays
    · rcases hnext with ⟨rfl, _⟩ | ⟨rfl, _⟩ <;> cases hmoved
  | send j t l job' answer result hq hr =>
    rcases phase_goto hp with hstays | ⟨_, hmoved⟩
    · exact hold hstays
    · obtain ⟨rfl, rfl, rfl, rfl⟩ := Phase.reporting.inj hmoved
      obtain ⟨channel, post, hpost, rfl⟩ := ha t l job' hq hchannel
      unfold NotificationDispatcher.attempt at hr
      split at hr
      · exact TelegramChannel.sendable_of_ok hpost (Option.some.inj hr).symm
      · cases hr

theorem rows_step (h : s.SentSendable) (hs : s.Step store fleet a s') :
    ∀ id r, s'.db.notifications.get? id = some r → r.status = .sent →
      r.channel = TelegramChannel.name → Sendable r.payload := by
  intro id r' hr' hsent hchannel
  have hother : ∀ {op : Op}, (∀ id t, op ≠ .complete id t) →
      (op.perform store s.db).2.notifications.get? id = some r' → Sendable r'.payload := by
    intro op hop hr'
    rcases row_origin store op hr' with ⟨r, hr, hstep⟩ | ⟨m, t, rfl⟩
    · rcases hstep.sent hsent with rfl | ⟨t, hcomplete⟩
      · exact h.rows id r' hr hsent hchannel
      · exact absurd hcomplete (hop r.id t)
    · cases hsent
  cases hs with
  | accept call => exact hother (fun _ _ h => by cases h) hr'
  | claim i now left row hp hrow => exact hother (fun _ _ h => by cases h) hr'
  | report i now left job answer p hp hnext =>
    rcases row_origin store _ hr' with ⟨r, hr, hstep⟩ | ⟨m, t, rfl⟩
    · rcases hstep.sent hsent with rfl | ⟨t, hcomplete⟩
      · exact h.rows id r' hr hsent hchannel
      · -- the row of the job whose answer is recorded
        obtain ⟨rfl, hid⟩ := NotificationDispatcher.outcome_eq_complete hcomplete
        obtain ⟨row, hrow, hmessage⟩ := h.carried.held i job (by rw [hp]; rfl)
        have hrid : r.id = id := (NotificationTable.get?_eq_some.mp hr).2
        rw [← hid, hrid, hr] at hrow
        cases hrow
        have hsame : r'.toMessage = job.message :=
          (congrArg Prod.snd hstep.fixed).trans hmessage
        have hpayload : r'.payload = job.payload := congrArg Message.payload hsame
        rw [hpayload]
        exact h.answers i now left job hp ((congrArg Message.channel hsame).symm.trans hchannel)
    · cases hsent
  | _ => exact h.rows id r' hr' hsent hchannel

/-- **Over every run**, what `telegram` has sent can be sent. -/
theorem sendable_of_sent {as : List (WorkerAction ι)}
    (h : (workers store fleet).Along Workers.Answered (workers store fleet).init as) :
    ∀ r ∈ ((workers store fleet).run as).db.notifications.rows,
      r.status = .sent → r.channel = TelegramChannel.name → Sendable r.payload := by
  have hinv := Machine.invariant_along (M := workers store fleet) (I := Workers.SentSendable)
    (P := Workers.Answered)
    { carried := carried_run store fleet []
      answers := fun _ _ _ _ h => by cases h
      rows := fun _ _ h => by cases h }
    (fun s a s' hI hP hs =>
      { carried := carried_step hI.carried (step_cases hs)
        answers := answers_step hI hP (step_cases hs)
        rows := rows_step hI (step_cases hs) }) h
  exact fun r hr => hinv.rows r.id r (NotificationTable.get?_of_mem hr)

variable (store) (fleet) in
/-- The row of a refused text, with the answer recorded. -/
theorem refused_step {i : ι} {now : DateTime} {left : Nat} {job : NotificationJob}
    {message : String} {r : NotificationRow}
    (hp : s.phase i = .reporting now left job (some (.error (.permanent message))))
    (hr : s.db.notifications.get? job.id = some r) (hflight : r.status = .inFlight) :
    ∃ s', (workers store fleet).step s (.report i) = some s' ∧
      s'.db.notifications.get? job.id =
        some (r.fail now.toRfc3339 ("permanent notification failure: " ++ message) false) := by
  let error := "permanent notification failure: " ++ message
  let update := (fleet.dispatcher i).failureUpdate now job error false
  let db := s.db.updateNotifications (NotificationRow.isClaimed job.id)
    (NotificationRow.fail now.toRfc3339 error false) fun _ => rfl
  have hperf : ((fleet.dispatcher i).outcome now job
      (some (.error (.permanent message)))).perform store s.db = (.ok .updated, db) := by
    -- a failure that is not tried again has no retry time to compute
    have hnext : update.nextAttemptAt = some now.toRfc3339 := if_pos rfl
    have hfail := perform_fail store s.db job.id update
    rw [hnext] at hfail
    exact hfail
  have hstep : (workers store fleet).step s (.report i) =
      some ({ s with db := db }.goto i (.claiming now left)) := by
    simp only [workers, Workers.step, hp, hperf]
  refine ⟨_, hstep, (updated_row hr).trans ?_⟩
  rw [if_pos (isClaimed_iff.mpr ⟨(NotificationTable.get?_eq_some.mp hr).2, hflight⟩)]

/-- **A refused text is lost for ever**: with its answer recorded, the job is failed, and no later
    step of any dispatcher changes its row. -/
theorem lost_of_refused (as bs : List (WorkerAction ι)) {i : ι} {now : DateTime} {left : Nat}
    {job : NotificationJob} {channel : TelegramChannel} {post : Post} {status : HttpStatus}
    {r : NotificationRow}
    (hp : ((workers store fleet).run as).phase i =
      .reporting now left job (some (channel.send post job)))
    (hr : ((workers store fleet).run as).db.notifications.get? job.id = some r)
    (hflight : r.status = .inFlight) (hpost : RefusesUnsendable post)
    (hno : ¬ Sendable job.payload)
    (hans : post channel.sendMessageUrl (channel.body job) = some status)
    (hcode : status.code ≠ 429) :
    ∃ r', ((workers store fleet).run (as ++ .report i :: bs)).db.notifications.get? job.id =
      some r' ∧ r'.status = .failed ∧ r'.retryable = false := by
  rw [TelegramChannel.send_refused hpost hno hans hcode] at hp
  obtain ⟨s', hstep, hrow⟩ := refused_step store fleet hp hr hflight
  have hrun : (workers store fleet).run (as ++ [.report i]) = s' := by
    rw [Machine.run_snoc, Machine.act_of_step hstep]
  rw [← hrun] at hrow
  obtain ⟨r', hr', _, hterminal⟩ := later_run store fleet (as ++ [.report i]) bs job.id _ hrow
  rw [List.append_assoc, List.singleton_append, hterminal (.inr (.inl ⟨rfl, rfl⟩))] at hr'
  exact ⟨_, hr', rfl, rfl⟩

end Refused

namespace Sample

/-- A store whose firing messages are their fields, and nothing else. -/
def fieldsStore : ServerEventStore where
  policy := telegramStore.policy
  templates := fieldsOnly
  policy_valid := telegramStore.policy_valid
  templates_valid := fieldsOnly_valid

/-- An alert is accepted, and its text is refused at the first attempt. -/
def refused : List (WorkerAction Unit) :=
  [.accept (call stale), .deliver () ⟨1767225660000000000⟩ 100, .claim (),
    .send () (.error (.permanent "Telegram returned HTTP 400 Bad Request")), .report ()]

end Sample

-- one alert, one attempt of two, and nobody hears of it
example : ((@workers Unit _ Sample.formats Sample.fieldsStore (Sample.worker 2 (by decide))).run
    Sample.refused).db.notifications.rows.map (fun r =>
      (r.payload, r.status, r.attempts, r.retryable)) = [("", .failed, 1, false)] := by
  decide +kernel

/-! ## 4. Formats that always fit -/

section Fits

variable [Formats] {store : ServerEventStore} {ι : Type} [DecidableEq ι] {fleet : Fleet ι}

/-- The text of a row has been rendered for an event that arrived. -/
theorem payload_of_row {as : List (WorkerAction ι)} {r : NotificationRow}
    (hr : r ∈ ((workers store fleet).run as).db.notifications.rows) :
    ∃ event alert, r.payload = renderEvent event alert store.templates := by
  obtain ⟨ops, hops⟩ := run_performAll store fleet as
  rw [hops] at hr
  have hist := history_run store ops
  obtain ⟨a, ha, hm⟩ := hist.arrival_of_row hr
  obtain ⟨_, c, _, hmessage⟩ := (mem_messagesOf hist.coherent ha).mp hm
  exact ⟨a.event, a.alert, (congrArg Message.payload hmessage).symm⟩

/-- **Under formats that always fit**, every text that is queued or sent in a run can be sent. -/
theorem sendable_of_run
    (hfits : ∀ status, alwaysFits (store.templates.formats.format status) = true)
    (as : List (WorkerAction ι)) :
    (∀ r ∈ ((workers store fleet).run as).db.notifications.rows, Sendable r.payload) ∧
      ∀ c ∈ ((workers store fleet).run as).sends, Sendable c.job.payload := by
  have hrows : ∀ r ∈ ((workers store fleet).run as).db.notifications.rows,
      Sendable r.payload := by
    intro r hr
    obtain ⟨event, alert, hpayload⟩ := payload_of_row hr
    rw [hpayload]
    exact sendable_of_alwaysFits store.templates_valid event alert (hfits alert.status)
  refine ⟨hrows, fun c hc => ?_⟩
  obtain ⟨r, hr, hmessage⟩ := (carried_run store fleet as).sent c hc
  have hpayload : r.payload = c.job.payload := congrArg Message.payload hmessage
  rw [← hpayload]
  exact hrows r (NotificationTable.get?_eq_some.mp hr).1

end Fits

/-- The theorem at the default formats and a job that is sent. -/
theorem sendable_of_run_default :
    let M := @workers Unit _ Sample.formats Sample.telegramStore (Sample.worker 2 (by decide))
    (M.run Sample.refused).sends.length = 1 ∧
      ∀ c ∈ (M.run Sample.refused).sends, Sendable c.job.payload := by
  intro M
  have hfits : ∀ status,
      alwaysFits (Sample.telegramStore.templates.formats.format status) = true := by
    intro status
    cases status <;> decide +kernel
  exact ⟨by decide +kernel, (@sendable_of_run Sample.formats Sample.telegramStore Unit _
    (Sample.worker 2 (by decide)) hfits Sample.refused).2⟩

end Beacon
