/-
  File:      Beacon/Server/Startup.lean
  Subject:   The configuration of a server and how it starts (`server.rs`, `serve`).

  `serve` goes through its configuration in a fixed order: the address, the Telegram file, the
  credential directory, the policy and the templates, then the lock of the data directory, the
  notification worker, and last the certificate. It stops at the first thing that is wrong; so a
  server that will be refused for its certificate has started its worker before. What it finds on
  the host (files, directories, addresses) is not the program's to decide; it is a parameter.

  * `ServerConfig.prepare` -- everything before the lock;
  * `ServerConfig.spawnWorker`, `ServerConfig.listen` -- what comes after it;
  * `prepare_ok` -- **what a server that gets as far as the lock will route and render with**.
-/
import Beacon.Delivery.Telegram

namespace Beacon

open Foundation

/-! ## 1. Telegram -/

/-- The Telegram file. -/
structure TelegramConfig where
  tokenFile : String
  chatId : String
  timeoutSeconds : UInt64 := 10
  templates : MessageTemplates := {}

def TelegramConfig.validate (config : TelegramConfig) : Except String Unit := do
  if Text.isBlank config.chatId || config.chatId.utf8ByteSize > 128 then
    .error "Telegram chat_id must be between 1 and 128 bytes"
  if config.timeoutSeconds = 0 || config.timeoutSeconds > 120 then
    .error "Telegram timeout_seconds must be between 1 and 120"
  config.templates.validate

/-- What a starting server finds on its host. -/
structure Host where
  socketAddress : String → Bool
  telegramFile : String → Except String TelegramConfig
  isDir : String → Bool
  readToString : String → Except String String
  httpsClient : Bool
  certificate : String → String → Except String Unit
  bindAddress : String → Except String Unit

/-- `TelegramConfig::load`: the file is read and parsed, then checked. -/
def TelegramConfig.load (host : Host) (path : String) : Except String TelegramConfig := do
  let config ← host.telegramFile path
  config.validate
  pure config

def TelegramChannel.fromConfig (host : Host) (config : TelegramConfig) :
    Except String TelegramChannel := do
  config.validate
  let text ← host.readToString config.tokenFile
  let token := Text.trim text
  if token.isEmpty || token.utf8ByteSize > 512 || token.toList.any Text.isWhitespace then
    .error "Telegram token file contains an invalid token"
  if host.httpsClient then
    pure ⟨token, config.chatId, "https://api.telegram.org"⟩
  else .error "build Telegram HTTPS client"

/-! ## 2. The server -/

/-- The configuration of a server on its data directory. -/
structure ServerConfig where
  bind : String
  credentialsDir : String
  policy : PolicyCatalog
  tlsCert : Option String
  tlsKey : Option String
  allowHttp : Bool
  telegramConfig : Option String
  notifyIntervalSeconds : UInt64 := 30
  notifyLimit : Nat := 100
  notifyMaxAttempts : UInt32 := 3
  notifyRetryDelaySeconds : UInt64 := 30

/-- The worker of a server: its dispatcher and the one channel of it. -/
structure NotificationWorker where
  dispatcher : NotificationDispatcher
  channel : TelegramChannel

namespace ServerConfig

/-- `serve` up to the lock: the Telegram file it has read, and the store it will open. -/
def prepare (config : ServerConfig) (host : Host) :
    Except String (Option TelegramConfig × ServerEventStore) := do
  if !host.socketAddress config.bind then
    .error ("invalid server bind address " ++ config.bind)
  let telegram ← config.telegramConfig.mapM (TelegramConfig.load host)
  let templates := telegram.elim {} TelegramConfig.templates
  if !host.isDir config.credentialsDir then
    .error ("agent credential directory does not exist or is not a directory: " ++
      config.credentialsDir)
  let store ← ServerEventStore.openWithPolicyAndTemplates config.policy templates
  pure (telegram, store)

/-- The dispatcher of the server, and `spawn_notification_worker`. -/
def spawnWorker (config : ServerConfig) (host : Host) (telegram : TelegramConfig) :
    Except String NotificationWorker := do
  let channel ← TelegramChannel.fromConfig host telegram
  let dispatcher ← NotificationDispatcher.new [TelegramChannel.name] config.notifyMaxAttempts
    config.notifyRetryDelaySeconds
  if config.notifyIntervalSeconds = 0 then .error "notify interval must be greater than zero"
  if config.notifyLimit = 0 then .error "notify limit must be greater than zero"
  pure ⟨dispatcher, channel⟩

/-- The end of `serve`: both files of the certificate, or none and the flag for it. -/
def listen (config : ServerConfig) (host : Host) : Except String Unit :=
  match config.tlsCert, config.tlsKey with
  | some cert, some key => do
    host.certificate cert key
    host.bindAddress config.bind
  | none, none => do
    if !config.allowHttp then
      .error "Beacon server requires TLS; use --allow-http only for local development"
    host.bindAddress config.bind
  | _, _ => .error "tls_cert and tls_key must be configured together"

/-- Requests come with TLS, or the configuration allows them without. -/
def Protected (config : ServerConfig) : Prop :=
  (config.tlsCert.isSome ∧ config.tlsKey.isSome) ∨
    (config.tlsCert = none ∧ config.tlsKey = none ∧ config.allowHttp = true)

end ServerConfig

/-! ## 3. What a server that has started has -/

theorem bind_ok {α β : Type} {x : Except String α} {f : α → Except String β} {b : β}
    (h : (x >>= f) = .ok b) : ∃ a, x = .ok a ∧ f a = .ok b := by
  cases x with
  | error e => cases h
  | ok a => exact ⟨a, rfl, h⟩

/-- What a check lets pass. -/
theorem check_ok {β : Type} {p : Prop} [Decidable p] {message : String} {f : Unit → Except String β}
    {x : Except String β} {b : β} (h : (if p then Except.error message >>= f else x) = .ok b) :
    ¬ p ∧ x = .ok b := by
  by_cases hp : p
  · rw [if_pos hp] at h
    cases h
  · rw [if_neg hp] at h
    exact ⟨hp, h⟩

theorem open_ok {policy : PolicyCatalog} {templates : MessageTemplates} {store : ServerEventStore}
    (h : ServerEventStore.openWithPolicyAndTemplates policy templates = .ok store) :
    store.policy = policy ∧ store.templates = templates := by
  unfold ServerEventStore.openWithPolicyAndTemplates at h
  split at h
  · cases h
  · split at h
    · cases h
    · cases h
      exact ⟨rfl, rfl⟩

namespace ServerConfig

variable {config : ServerConfig} {host : Host}

/-- **A server that gets as far as the lock** routes with its policy and renders with the
    templates of its Telegram file, or with the default ones. -/
theorem prepare_ok {telegram : Option TelegramConfig} {store : ServerEventStore}
    (h : config.prepare host = .ok (telegram, store)) :
    (telegram = none ↔ config.telegramConfig = none) ∧ store.policy = config.policy ∧
      store.templates = telegram.elim {} TelegramConfig.templates := by
  obtain ⟨_, h⟩ := check_ok h
  obtain ⟨loaded, hload, h⟩ := bind_ok h
  obtain ⟨_, h⟩ := check_ok h
  obtain ⟨opened, hopen, h⟩ := bind_ok h
  cases h
  refine ⟨?_, open_ok hopen⟩
  cases hpath : config.telegramConfig with
  | none =>
    rw [hpath] at hload
    cases hload
    exact iff_of_true rfl rfl
  | some path =>
    rw [hpath] at hload
    obtain ⟨file, _, hsome⟩ := bind_ok hload
    cases hsome
    exact iff_of_false nofun nofun

/-- **A worker has the one channel `telegram`**, the attempts of its configuration, and work to
    do in each round. -/
theorem spawnWorker_ok {telegram : TelegramConfig} {worker : NotificationWorker}
    (h : config.spawnWorker host telegram = .ok worker) :
    worker.dispatcher.channels = [TelegramChannel.name] ∧
      worker.dispatcher.maxAttempts = config.notifyMaxAttempts ∧ config.notifyLimit ≠ 0 := by
  obtain ⟨channel, _, h⟩ := bind_ok h
  obtain ⟨dispatcher, hnew, h⟩ := bind_ok h
  obtain ⟨_, h⟩ := check_ok h
  obtain ⟨hlimit, h⟩ := check_ok h
  cases h
  unfold NotificationDispatcher.new at hnew
  rw [dif_neg (List.cons_ne_nil _ _)] at hnew
  split at hnew
  · cases hnew
  · cases hnew
    exact ⟨rfl, rfl, hlimit⟩

/-- **No server takes requests without TLS** unless its configuration says so. -/
theorem listen_ok (h : config.listen host = .ok ()) : config.Protected := by
  unfold listen at h
  split at h
  · rename_i cert key hcert hkey
    exact .inl ⟨by rw [hcert]; rfl, by rw [hkey]; rfl⟩
  · rename_i hcert hkey
    obtain ⟨hallow, _⟩ := check_ok h
    refine .inr ⟨hcert, hkey, ?_⟩
    simpa using hallow
  · cases h

end ServerConfig

end Beacon
