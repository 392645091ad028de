/-
  File:      Beacon/Server/Episodes.lean
  Subject:   What is notified during one firing episode of a fingerprint.

  An episode starts with the Firing event that finds its fingerprint not Firing and lasts up to
  the next Resolved event. All through it the status is Firing, so every message queued in it
  is rendered as a firing message; queued are the messages of the opening event and of the Info
  events, because the decision to notify asks for the state of the event and for the count.

  * `status_of_episode` -- the status is Firing after every arrival of an episode;
  * `firing_notifications_iff` -- **when an episode queues at most one firing message for a
    channel**, and an episode that queues two;
  * `currentEpisode_spec` -- the episode a Firing event belongs to;
  * `episode_notified_iff` -- **when a routed Firing event finds its channel notified**, and one
    that does not.
-/
import Beacon.Server.Routing

namespace Beacon

open Foundation

/-! ## 1. Episodes -/

/-- From an opening event on, without a Resolved event. -/
structure IsEpisode (ep : List Arrival) : Prop where
  shape : ∃ opener body, ep = opener :: body ∧ opener.opens = true ∧
    ∀ a ∈ body, a.event.state ≠ .resolved

/-- `ep` is an episode within the arrivals `es` of one fingerprint. -/
def EpisodeOf (es ep : List Arrival) : Prop :=
  IsEpisode ep ∧ ∃ pre post, es = pre ++ ep ++ post

/-- An arrival whose messages are queued. -/
def Arrival.announced (a : Arrival) : Bool := a.opens || a.event.state = .info

section Status

theorem wasFiring_of_last {es : List Arrival} {last a : Arrival}
    (hb : a.before = es.getLast?.map Arrival.alert) (hl : es.getLast? = some last)
    (hs : last.alert.status = .firing) : a.wasFiring = true := by
  rw [Arrival.wasFiring, hb, hl]
  exact decide_eq_true hs

theorem status_of_opens {a : Arrival} (h : a.opens = true) : a.alert.status = .firing := by
  simp only [Arrival.opens, Bool.and_eq_true, decide_eq_true_eq] at h
  rw [status_alert, h.1]
  rfl

theorem status_of_wasFiring {a : Arrival} (hw : a.wasFiring = true)
    (hs : a.event.state ≠ .resolved) : a.alert.status = .firing := by
  rw [status_alert]
  cases h : a.event.state with
  | firing => rfl
  | resolved => exact absurd h hs
  | info => simp [hw]

/-- **All through an episode the status is Firing.** By induction on its end. -/
theorem status_of_episode {f : String} {pre body : List Arrival} {opener : Arrival}
    (hc : Coherent (pre ++ opener :: body))
    (hf : ∀ a ∈ pre ++ opener :: body, a.event.fingerprint = f) (ho : opener.opens = true)
    (hbody : ∀ a ∈ body, a.event.state ≠ .resolved) :
    ∀ a ∈ opener :: body, a.alert.status = .firing := by
  induction body using List.reverseRecOn with
  | nil =>
    intro a ha
    rw [List.mem_singleton.mp ha]
    exact status_of_opens ho
  | append_singleton body b ih =>
    rw [← List.cons_append, ← List.append_assoc] at hc hf
    obtain ⟨hc', hb⟩ := coherent_snoc.mp hc
    have ih := ih hc' (fun a ha => hf a (List.mem_append_left _ ha))
      (fun a ha => hbody a (List.mem_append_left _ ha))
    intro a ha
    rw [← List.cons_append] at ha
    rcases List.mem_append.mp ha with ha | ha
    · exact ih a ha
    · rw [List.mem_singleton.mp ha]
      have hown : ofFingerprint b.event.fingerprint (pre ++ opener :: body) =
          pre ++ opener :: body := by
        rw [ofFingerprint, List.filter_eq_self]
        intro x hx
        rw [decide_eq_true_eq, hf x (List.mem_append_left _ hx),
          hf b (List.mem_append_right _ (List.mem_singleton_self _))]
      rw [alertOf, hown] at hb
      obtain ⟨last, hl⟩ : ∃ last, (opener :: body).getLast? = some last :=
        ⟨_, List.getLast?_eq_some_getLast (List.cons_ne_nil _ _)⟩
      have hlast : (pre ++ opener :: body).getLast? = some last := by
        rw [List.getLast?_append, hl]
        rfl
      have hfiring : last.alert.status = .firing := ih last (List.mem_of_getLast? hl)
      exact status_of_wasFiring (wasFiring_of_last hb hlast hfiring)
        (hbody b (List.mem_append_right _ (List.mem_singleton_self _)))

/-- The status after an arrival of an episode, and no event of an episode is Resolved. -/
theorem status_of_mem_episode {as : List Arrival} (hc : Coherent as) {f : String}
    {ep : List Arrival} (hep : EpisodeOf (ofFingerprint f as) ep) {a : Arrival} (ha : a ∈ ep) :
    a.alert.status = .firing ∧ a.event.state ≠ .resolved := by
  obtain ⟨⟨opener, body, rfl, ho, hbody⟩, pre, post, hes⟩ := hep
  have hco := coherent_ofFingerprint hc f
  rw [hes] at hco
  have hfp : ∀ x ∈ pre ++ opener :: body, x.event.fingerprint = f := by
    intro x hx
    have hx' : x ∈ ofFingerprint f as := by
      rw [hes]
      exact List.mem_append_left _ hx
    exact fingerprint_of_mem hx'
  refine ⟨status_of_episode (coherent_init hco) hfp ho hbody a ha, ?_⟩
  · rcases List.mem_cons.mp ha with rfl | ha
    · simp only [Arrival.opens, Bool.and_eq_true, decide_eq_true_eq] at ho
      rw [ho.1]
      decide
    · exact hbody a ha

theorem mem_of_episode {es ep : List Arrival} (hep : EpisodeOf es ep) {a : Arrival}
    (ha : a ∈ ep) : a ∈ es := by
  obtain ⟨_, pre, post, hes⟩ := hep
  rw [hes]
  exact List.mem_append_left _ (List.mem_append_right _ ha)

theorem fingerprint_of_mem_episode {as : List Arrival} {f : String} {ep : List Arrival}
    (hep : EpisodeOf (ofFingerprint f as) ep) {a : Arrival} (ha : a ∈ ep) :
    a.event.fingerprint = f :=
  fingerprint_of_mem (mem_of_episode hep ha)

theorem mem_of_mem_episode {as : List Arrival} {f : String} {ep : List Arrival}
    (hep : EpisodeOf (ofFingerprint f as) ep) {a : Arrival} (ha : a ∈ ep) : a ∈ as :=
  mem_of_mem_ofFingerprint (mem_of_episode hep ha)

theorem announced_iff {a : Arrival} (hs : a.event.state ≠ .resolved) :
    (a.event.state ≠ .firing ∨ a.opens = true) ↔ a.announced = true := by
  unfold Arrival.announced
  cases h : a.event.state with
  | firing => simp
  | resolved => exact absurd h hs
  | info => simp

end Status

/-! ## 2. Firing messages of one episode -/

/-- A row for channel `c` of an event of the episode, rendered as a firing message: with the
    firing format and the status text "ALERT FIRING". -/
structure FiringNotification (store : ServerEventStore) (db : Db) (ep : List Arrival) (c : String)
    (r : NotificationRow) : Prop where
  row : r ∈ db.notifications.rows
  channel : r.channel = c
  rendered : ∃ a ∈ ep, r.eventId = a.event.eventId ∧
    r.payload = renderMessage a.event .firing a.alert.severity store.templates

/-- At most one notification for channel `c` is a firing message of the episode. -/
def AtMostOneFiring (store : ServerEventStore) (db : Db) (ep : List Arrival) (c : String) : Prop :=
  ∀ r s, FiringNotification store db ep c r → FiringNotification store db ep c s → r = s

section Firing

variable [Formats] {store : ServerEventStore} {as : List Arrival} {db : Db} {f c : String}
  {ep : List Arrival}

/-- An announced event of an episode that is routed to `c` has a firing message for `c`. -/
theorem firing_of_announced (h : History store as db) (hep : EpisodeOf (ofFingerprint f as) ep)
    {a : Arrival} (ha : a ∈ ep) (hann : a.announced = true) (hc : store.policy.Routed a.event c) :
    ∃ r, FiringNotification store db ep c r ∧ r.eventId = a.event.eventId := by
  have hmem := mem_of_mem_episode hep ha
  obtain ⟨hs, hr⟩ := status_of_mem_episode h.coherent hep ha
  obtain ⟨r, hrow, hm⟩ := h.row_of_message hmem
    ((mem_messagesOf h.coherent hmem).mpr ⟨(announced_iff hr).mpr hann, c, hc, rfl⟩)
  have hid : r.eventId = a.event.eventId := congrArg Message.eventId hm
  refine ⟨r, ⟨hrow, congrArg Message.channel hm, a, ha, hid, ?_⟩, hid⟩
  rw [show r.payload = renderEvent a.event a.alert store.templates from congrArg Message.payload hm,
    renderEvent, hs]

/-- The row of an event of an episode: the event is announced and routed to its channel. -/
theorem row_of_episode (h : History store as db) (hep : EpisodeOf (ofFingerprint f as) ep)
    {a : Arrival} (ha : a ∈ ep) {r : NotificationRow} (hr : r ∈ db.notifications.rows)
    (hid : r.eventId = a.event.eventId) :
    a.announced = true ∧ store.policy.Routed a.event r.channel ∧ r.fingerprint = f := by
  obtain ⟨b, hb, hm⟩ := h.arrival_of_row hr
  have hmem := mem_of_mem_episode hep ha
  have hab : b = a := h.eq_of_id hb hmem ((eventId_of_mem_messagesOf hm).symm.trans hid)
  rw [hab] at hm
  obtain ⟨hann, d, hd, e⟩ := (mem_messagesOf h.coherent hmem).mp hm
  have hdc : d = r.channel := congrArg Message.channel e
  have hfp : a.event.fingerprint = r.fingerprint := congrArg Message.fingerprint e
  exact ⟨(announced_iff (status_of_mem_episode h.coherent hep ha).2).mp hann, hdc ▸ hd,
    hfp.symm.trans (fingerprint_of_mem_episode hep ha)⟩

/-- A firing message of an episode comes from an announced event routed to its channel. -/
theorem announced_of_firing (h : History store as db) (hep : EpisodeOf (ofFingerprint f as) ep)
    {r : NotificationRow} (hr : FiringNotification store db ep c r) :
    ∃ a ∈ ep, r.eventId = a.event.eventId ∧ a.announced = true ∧ store.policy.Routed a.event c := by
  obtain ⟨a, ha, hid, _⟩ := hr.rendered
  obtain ⟨hann, hrouted, _⟩ := row_of_episode h hep ha hr.row hid
  exact ⟨a, ha, hid, hann, hr.channel ▸ hrouted⟩

/-- Two announced events of an episode, both routed to `c`, make two firing messages. -/
theorem two_firing (h : History store as db) (hep : EpisodeOf (ofFingerprint f as) ep)
    {a b : Arrival} (ha : a ∈ ep) (hb : b ∈ ep) (hann : a.announced = true)
    (hbnn : b.announced = true) (hac : store.policy.Routed a.event c)
    (hbc : store.policy.Routed b.event c) (h1 : AtMostOneFiring store db ep c) : a = b := by
  obtain ⟨r, hr, hra⟩ := firing_of_announced h hep ha hann hac
  obtain ⟨s, hs, hsb⟩ := firing_of_announced h hep hb hbnn hbc
  have hrs : r = s := h1 r s hr hs
  exact h.eq_of_id (mem_of_mem_episode hep ha) (mem_of_mem_episode hep hb)
    (hra.symm.trans (hrs ▸ hsb))

end Firing

/-- **Firing messages of an episode.** In every run of the store and for every policy,
    fingerprint, episode of it and channel: at most one firing message is queued for the channel
    exactly when at most one among the opening event and the Info events of the episode is
    routed to it. -/
theorem firing_notifications_iff [Formats] (store : ServerEventStore) (ops : List Op) (f c : String)
    (ep : List Arrival) (hep : EpisodeOf (ofFingerprint f (arrivals store ops)) ep) :
    AtMostOneFiring store (performAll store .empty ops) ep c ↔
      ∀ a ∈ ep, ∀ b ∈ ep, a.opens = true ∨ a.event.state = .info →
        b.opens = true ∨ b.event.state = .info → store.policy.Routed a.event c →
        store.policy.Routed b.event c → a = b := by
  have h := history_run store ops
  have hann : ∀ a : Arrival, a.opens = true ∨ a.event.state = .info ↔ a.announced = true := by
    intro a
    simp [Arrival.announced]
  simp only [hann]
  constructor
  · intro h1 a ha b hb haa hbb hac hbc
    exact two_firing h hep ha hb haa hbb hac hbc h1
  · intro hone r s hr hs
    obtain ⟨a, ha, hra, haa, hac⟩ := announced_of_firing h hep hr
    obtain ⟨b, hb, hsb, hbb, hbc⟩ := announced_of_firing h hep hs
    have hab : a = b := hone a ha b hb haa hbb hac hbc
    exact NotificationTable.eq_of_key hr.row hs.row (by rw [hra, hab, hsb])
      (hr.channel.trans hs.channel.symm)

section Twice

/-- A firing event and an Info event of the same fingerprint a minute later. -/
def infoWhileFiring : List AcceptCall :=
  [Sample.call (Sample.event Sample.id1 "2026-01-01T00:00:00Z" .firing .critical),
    Sample.call (Sample.event Sample.id2 "2026-01-01T00:01:00Z" .info .info)]

theorem arrivals_infoWhileFiring :
    @arrivals Sample.formats Sample.telegramStore (infoWhileFiring.map .accept) =
      arriveAll infoWhileFiring := by
  refine @arrivals_eq Sample.formats _ _ ?_ (by decide)
  intro c hc
  rcases List.mem_cons.mp hc with rfl | hc
  · decide
  · rw [List.mem_singleton.mp hc]
    decide

/-- The two events are one episode. -/
theorem episode_infoWhileFiring :
    EpisodeOf (ofFingerprint "backup/restic/age" (arriveAll infoWhileFiring))
      (arriveAll infoWhileFiring) := by
  refine ⟨⟨_, _, rfl, rfl, ?_⟩, [], [], rfl⟩
  intro a ha
  rw [List.mem_singleton.mp ha]
  decide

/-- The theorem at an Info event received while Firing, routed where the opening event was. -/
theorem firing_notifications_iff_info :
    ¬ AtMostOneFiring Sample.telegramStore
      (@performAll Sample.formats Sample.telegramStore .empty (infoWhileFiring.map .accept))
      (arriveAll infoWhileFiring) "telegram" := by
  have hep : EpisodeOf (ofFingerprint "backup/restic/age"
      (@arrivals Sample.formats Sample.telegramStore (infoWhileFiring.map .accept)))
      (arriveAll infoWhileFiring) := by
    rw [arrivals_infoWhileFiring]
    exact episode_infoWhileFiring
  rw [@firing_notifications_iff Sample.formats Sample.telegramStore _ _ "telegram" _ hep]
  intro hone
  have heq := hone _ List.mem_cons_self _ (List.mem_cons_of_mem _ List.mem_cons_self) (by decide)
    (by decide) (PolicyCatalog.mem_channelsFor.mp (by decide))
    (PolicyCatalog.mem_channelsFor.mp (by decide))
  exact absurd (congrArg (fun a : Arrival => a.event.eventId) heq) (by decide)

/-- **Two firing messages in one episode**: the Info event of the episode queues a second
    message, and its text says ALERT FIRING again. -/
theorem firing_message_twice :
    (@performAll Sample.formats Sample.telegramStore .empty
        (infoWhileFiring.map .accept)).notifications.messages.map Message.payload =
      ["🚨 ALERT FIRING\nBackup | Monitored condition\n\nA monitored condition requires " ++
          "attention.\n\nAction: Check the corresponding runbook.\nSeverity: critical",
        "🚨 ALERT FIRING\nBackup | Monitored condition\n\nA monitored condition requires " ++
          "attention.\n\nAction: Check the corresponding runbook.\nSeverity: critical"] ∧
    ∃ ep, EpisodeOf (ofFingerprint "backup/restic/age"
        (@arrivals Sample.formats Sample.telegramStore (infoWhileFiring.map .accept))) ep ∧
      ¬ AtMostOneFiring Sample.telegramStore
        (@performAll Sample.formats Sample.telegramStore .empty (infoWhileFiring.map .accept)) ep
        "telegram" := by
  let _ : Formats := Sample.formats
  have hist := history_run Sample.telegramStore (infoWhileFiring.map .accept)
  rw [arrivals_infoWhileFiring] at hist ⊢
  rw [hist.messages]
  refine ⟨by decide +kernel, arriveAll infoWhileFiring, episode_infoWhileFiring, fun h1 => ?_⟩
  have heq := two_firing hist episode_infoWhileFiring List.mem_cons_self
    (List.mem_cons_of_mem _ List.mem_cons_self) (by decide) (by decide)
    (PolicyCatalog.mem_channelsFor.mp (by decide)) (PolicyCatalog.mem_channelsFor.mp (by decide)) h1
  exact absurd (congrArg (fun a : Arrival => a.event.eventId) heq) (by decide)

end Twice

/-! ## 3. The channels of a repeated Firing event -/

/-- The arrivals from the latest opening on. -/
def currentEpisode (es : List Arrival) : List Arrival := es.drop (openingIndex es - 1)

/-- The status is Firing after an arrival that opens, or after one that found it Firing. -/
theorem wasFiring_of_status {a : Arrival} (hs : a.alert.status = .firing)
    (ho : a.opens = false) : a.wasFiring = true ∧ a.event.state ≠ .resolved := by
  rw [status_alert] at hs
  unfold Arrival.opens at ho
  cases h : a.event.state with
  | firing => simp_all
  | resolved => simp [h, EventState.status] at hs
  | info =>
    rw [h] at hs
    cases hw : a.wasFiring with
    | true => exact ⟨rfl, by decide⟩
    | false => simp [hw, EventState.status] at hs

/-- **While the status is Firing there is an episode**, and it ends with the last arrival. -/
theorem currentEpisode_spec {es : List Arrival} (hc : Coherent es) {f : String}
    (hf : ∀ a ∈ es, a.event.fingerprint = f) {last : Arrival} (hl : es.getLast? = some last)
    (hs : last.alert.status = .firing) : IsEpisode (currentEpisode es) := by
  induction es using List.reverseRecOn generalizing last with
  | nil => cases hl
  | append_singleton es a ih =>
    have hlast : a = last := by simpa using hl
    subst hlast
    obtain ⟨hc', hb⟩ := coherent_snoc.mp hc
    have hf' : ∀ x ∈ es, x.event.fingerprint = f := fun x hx => hf x (List.mem_append_left _ hx)
    unfold currentEpisode
    rw [openingIndex_snoc]
    cases ho : a.opens with
    | true =>
      refine ⟨⟨a, [], by simp, ho, fun x hx => absurd hx List.not_mem_nil⟩⟩
    | false =>
      obtain ⟨hw, hres⟩ := wasFiring_of_status hs ho
      have hown : ofFingerprint a.event.fingerprint es = es := by
        rw [ofFingerprint, List.filter_eq_self]
        intro x hx
        rw [decide_eq_true_eq, hf' x hx, hf a (List.mem_append_right _ (List.mem_singleton_self _))]
      rw [alertOf, hown] at hb
      rw [Arrival.wasFiring, hb] at hw
      cases hl' : es.getLast? with
      | none => simp [hl'] at hw
      | some last' =>
        have hfiring : last'.alert.status = .firing := by simpa [hl'] using hw
        have hne : es ≠ [] := by
          rintro rfl
          cases hl'
        obtain ⟨opener, body, hshape, hop, hbody⟩ := ih hc' hf' hl' hfiring
        have hle : openingIndex es - 1 ≤ es.length := by
          have := (openingIndex_le hne).2
          omega
        simp only [Bool.false_eq_true, if_false, if_neg hne]
        rw [List.drop_append_of_le_length hle]
        unfold currentEpisode at hshape
        refine ⟨⟨opener, body ++ [a], by rw [hshape]; rfl, hop, fun x hx => ?_⟩⟩
        rcases List.mem_append.mp hx with hx | hx
        · exact hbody x hx
        · rw [List.mem_singleton.mp hx]
          exact hres

/-- The episode a Firing event belongs to. -/
theorem currentEpisode_of_firing {as : List Arrival} {a : Arrival} (hc : Coherent (as ++ [a]))
    (hs : a.event.state = .firing) :
    EpisodeOf (ofFingerprint a.event.fingerprint (as ++ [a]))
      (currentEpisode (ofFingerprint a.event.fingerprint (as ++ [a]))) := by
  have hstatus : a.alert.status = .firing := by
    rw [status_alert, hs]
    rfl
  have hlast : (ofFingerprint a.event.fingerprint (as ++ [a])).getLast? = some a := by
    rw [ofFingerprint_snoc, if_pos rfl, List.getLast?_append]
    rfl
  have hown := currentEpisode_spec (coherent_ofFingerprint hc a.event.fingerprint)
    (fun x hx => fingerprint_of_mem hx) hlast hstatus
  generalize ofFingerprint a.event.fingerprint (as ++ [a]) = es at hown
  exact ⟨hown, es.take (openingIndex es - 1), [],
    by rw [List.append_nil, currentEpisode, List.take_append_drop]⟩

/-- The table holds a row for the fingerprint and the channel whose event is of the episode. -/
def ChannelNotified (db : Db) (f c : String) (ep : List Arrival) : Prop :=
  ∃ r ∈ db.notifications.rows, r.fingerprint = f ∧ r.channel = c ∧
    ∃ b ∈ ep, r.eventId = b.event.eventId

/-- **The channel of a Firing event.** In every run of the store and for every policy, when the
    last newly accepted event is a Firing one: the table holds a row for its fingerprint and a
    channel `c` (of those it is routed to, or any other) from the current episode exactly when
    the opening event of the episode, or an Info event of it, is routed to `c`. -/
theorem episode_notified_iff [Formats] (store : ServerEventStore) (ops : List Op)
    (as : List Arrival) (a : Arrival) (c : String) (ha : arrivals store ops = as ++ [a])
    (hs : a.event.state = .firing) :
    let ep := currentEpisode (ofFingerprint a.event.fingerprint (as ++ [a]))
    ChannelNotified (performAll store .empty ops) a.event.fingerprint c ep ↔
      ∃ b ∈ ep, (b.opens = true ∨ b.event.state = .info) ∧ c ∈ store.policy.channelsFor b.event := by
  intro ep
  have h := history_run store ops
  rw [ha] at h
  have hep : EpisodeOf (ofFingerprint a.event.fingerprint (as ++ [a])) ep :=
    currentEpisode_of_firing h.coherent hs
  constructor
  · rintro ⟨r, hr, _, hch, b, hb, hid⟩
    obtain ⟨hann, hrouted, _⟩ := row_of_episode h hep hb hr hid
    refine ⟨b, hb, by simpa [Arrival.announced] using hann, ?_⟩
    rw [PolicyCatalog.mem_channelsFor, ← hch]
    exact hrouted
  · rintro ⟨b, hb, hann, hch⟩
    have hb' : b.announced = true := by simpa [Arrival.announced] using hann
    obtain ⟨r, hr, hid⟩ := firing_of_announced h hep hb hb' (PolicyCatalog.mem_channelsFor.mp hch)
    exact ⟨r, hr.row, (row_of_episode h hep hb hr.row hid).2.2, hr.channel, b, hb, hid⟩

section Escalation

/-- A warning that no rule routes, escalated to critical a minute later. -/
def escalation : List AcceptCall :=
  [Sample.call (Sample.event Sample.id1 "2026-01-01T00:00:00Z" .firing .warning),
    Sample.call (Sample.event Sample.id2 "2026-01-01T00:01:00Z" .firing .critical)]

theorem arrivals_escalation :
    @arrivals Sample.formats Sample.criticalStore (escalation.map .accept) =
      arriveAll escalation := by
  refine @arrivals_eq Sample.formats _ _ ?_ (by decide)
  intro c hc
  rcases List.mem_cons.mp hc with rfl | hc
  · decide
  · rw [List.mem_singleton.mp hc]
    decide

/-- The escalation, after its opening. -/
def escalated : Arrival :=
  ⟨Sample.call (Sample.event Sample.id2 "2026-01-01T00:01:00Z" .firing .critical),
    alertOf "backup/restic/age" (arriveAll (escalation.take 1))⟩

theorem arriveAll_escalation :
    arriveAll escalation = arriveAll (escalation.take 1) ++ [escalated] := rfl

/-- The theorem at an escalation: neither the opening event nor an Info event is routed. -/
theorem episode_notified_iff_escalation :
    let ep := currentEpisode (ofFingerprint escalated.event.fingerprint
      (arriveAll (escalation.take 1) ++ [escalated]))
    ChannelNotified (@performAll Sample.formats Sample.criticalStore .empty
        (escalation.map .accept)) escalated.event.fingerprint "telegram" ep ↔
      ∃ b ∈ ep, (b.opens = true ∨ b.event.state = .info) ∧
        "telegram" ∈ Sample.criticalStore.policy.channelsFor b.event :=
  @episode_notified_iff Sample.formats Sample.criticalStore (escalation.map .accept)
    (arriveAll (escalation.take 1)) escalated "telegram"
    (arrivals_escalation.trans arriveAll_escalation) rfl

/-- **A silenced channel**: the critical event is newly accepted and routed to the channel, and
    the table holds no row for it from the episode, nor any other row. -/
theorem escalation_silenced :
    @arrivals Sample.formats Sample.criticalStore (escalation.map .accept) =
      arriveAll (escalation.take 1) ++ [escalated] ∧
    escalated.event.state = .firing ∧
    "telegram" ∈ Sample.criticalStore.policy.channelsFor escalated.event ∧
    ¬ ChannelNotified (@performAll Sample.formats Sample.criticalStore .empty
      (escalation.map .accept)) escalated.event.fingerprint "telegram"
      (currentEpisode (ofFingerprint escalated.event.fingerprint
        (arriveAll (escalation.take 1) ++ [escalated]))) := by
  refine ⟨arrivals_escalation.trans arriveAll_escalation, rfl, by decide, ?_⟩
  have hrows : (@performAll Sample.formats Sample.criticalStore .empty
      (escalation.map .accept)).notifications.rows = [] := by decide +kernel
  rintro ⟨r, hr, _⟩
  rw [hrows] at hr
  cases hr

end Escalation

end Beacon
