import TunnelWeaver.Abuse.Peers
import TunnelWeaver.Proto.Policy
import TunnelWeaver.Server.Budgets

/-! The `configure` command (`main.rs`), which builds a whole configuration from its flags, from the
stored one and from defaults, and writes it back. -/

namespace TunnelWeaver.Server.Configure

open Abuse (SocketAddr)
open Proto.Policy (trim)

/-! ## The configuration (`config.rs`) -/

/-- A key in hexadecimal; empty until one is generated. -/
abbrev SealKey := String

inductive ProviderKind where
  | microsoft (authority clientId clientSecret : String)
  | google (clientId clientSecret : String)
  deriving DecidableEq

structure ProviderPreset where
  enabled : Bool
  kind : ProviderKind
  deriving DecidableEq

/-- The preset before there was a registry of providers. -/
structure MicrosoftPreset where
  authority : String
  clientId : String
  clientSecret : String
  enabled : Bool
  deriving DecidableEq

structure AccountConfig extends AccountBudgets where
  minPasswordLength : UInt64 := 12
  argon2MemoryKib : UInt32 := 102400
  argon2Iterations : UInt32 := 2
  argon2Parallelism : UInt32 := 8
  verificationTtlSecs : UInt64 := 86400
  resendCooldownSecs : UInt64 := 60
  completionTtlSecs : UInt64 := 3600
  resetTtlSecs : UInt64 := 3600
  sessionTtlSecs : UInt64 := 2592000
  confirmWindowSecs : UInt64 := 300
  totpKey : SealKey := ""
  ssoKey : SealKey := ""
  /-- By the id of the provider, in order. -/
  sso : List (String × ProviderPreset) := []
  microsoft : Option MicrosoftPreset := none
  cookieSecure : Bool := true
  hibpUrl : String := "https://api.pwnedpasswords.com/range"
  keyLogRetentionDays : UInt64 := 365
  supportEmail : Option String := none
  baseUrl : Option String := none
  inactiveAfterSecs : UInt64 := 365 * 86400
  inactivityWarningBeforeSecs : UInt64 := 30 * 86400

/-- A key that is there stays; `fresh` comes from `SealKey::generate`. -/
def SealKey.fill (key fresh : SealKey) : SealKey := if key = "" then fresh else key

def AccountConfig.generateMissingKeys (account : AccountConfig) (totpKey ssoKey : SealKey) :
    AccountConfig :=
  { account with
    totpKey := SealKey.fill account.totpKey totpKey
    ssoKey := SealKey.fill account.ssoKey ssoKey }

structure EmailConfig where
  provider : String
  sender : String
  fromName : Option String := none
  apiKey : Option String := none
  secret : Option String := none
  username : Option String := none
  domain : Option String := none
  endpoint : Option String := none
  templateId : Option String := none
  deriving DecidableEq

def defaultUsageRetention : UInt64 := 31536000

structure Config where
  tunnelDomain : String
  adminDomain : String
  adminEmail : String
  acmeProvider : String
  listenHttp : SocketAddr
  listenHttps : SocketAddr
  controlSocket : String
  acmeDirectory : Option String := none
  acmeEabKid : Option String := none
  acmeEabHmac : Option String := none
  acmeRootCaPem : Option String := none
  acmeFallbackProviders : List String := []
  usageFlushIntervalSecs : UInt64 := 60
  usageRetentionSecs : UInt64 := defaultUsageRetention
  relayIps : List IpAddr := []
  setupComplete : Bool := false
  email : Option EmailConfig := none
  abuse : Option AbuseConfig := none
  account : AccountConfig := {}

/-! ## One-time codes (`email/otp.rs`) -/

inductive OtpError where
  | wrong
  | expired
  | tooManyAttempts
  deriving DecidableEq

/-- A challenge and the email block that it proves. -/
structure PendingOtp where
  codeHash : String
  expiresAt : Int
  attempts : UInt32
  maxAttempts : UInt32
  pending : EmailConfig
  deriving DecidableEq

/-- `verify_at`, with the challenge as it is left. -/
def PendingOtp.verifyAt (p : PendingOtp) (hashCode : String → String) (candidate : String)
    (now : Int) : PendingOtp × Except OtpError Unit :=
  if p.expiresAt < now then (p, .error .expired)
  else if p.maxAttempts ≤ p.attempts then (p, .error .tooManyAttempts)
  else if hashCode (.ofList (trim candidate.toList)) = p.codeHash then (p, .ok ())
  else
    let p := { p with attempts := p.attempts + 1 }
    (p, .error (if p.maxAttempts ≤ p.attempts then .tooManyAttempts else .wrong))

def otpTtlSecs : Int := 300

def otpMaxAttempts : UInt32 := 5

/-! ## The store -/

/-- The configuration row by what its text is read as. `serde` reads a configuration that it wrote as
it was, and passes over the key of the challenge. -/
structure Row where
  /-- `none` if it is not the JSON of a configuration. -/
  config : Option Config
  /-- `PendingOtp::load`, without the failures of the database. -/
  otp : Except Unit (Option PendingOtp)

/-- `save_config`. -/
def saved (config : Config) : Option Row := some { config := some config, otp := .ok none }

/-- `set_config` at the key of the challenge: what is no object becomes one. -/
def withOtp (stored : Option Row) (otp : Option PendingOtp) : Option Row :=
  some { config := stored.bind (·.config), otp := .ok otp }

/-! ## Flags -/

/-- What `gather_acme_config` makes of the flags and the answers to its prompts. -/
structure GatheredAcme where
  tunnelDomain : String
  adminDomain : String
  adminEmail : String
  acmeProvider : String
  acmeDirectory : Option String
  acmeEabKid : Option String
  acmeEabHmac : Option String
  /-- A path. -/
  acmeRootCa : Option String

structure EmailArgs where
  emailProvider : Option String := none
  emailFrom : Option String := none
  emailFromName : Option String := none
  emailApiKey : Option String := none
  emailApiKeyFile : Option String := none
  emailSecret : Option String := none
  emailUsername : Option String := none
  emailDomain : Option String := none
  emailEndpoint : Option String := none
  emailTemplate : Option String := none
  emailOtp : Option String := none

structure ConfigureArgs where
  gathered : GatheredAcme
  listenHttp : SocketAddr
  listenHttps : SocketAddr
  controlSocket : String
  usageFlushInterval : UInt64
  emailSettings : EmailArgs

/-- What the command gets from elsewhere: the file system, the database, the clock, random numbers
and the mail server. -/
structure Outside where
  files : String → Except String String
  /-- The first read of the row fails, and the one of `PendingOtp::load`. -/
  readFails : Bool := false
  otpReadFails : Bool := false
  saveFails : Bool := false
  /-- `set_config` fails. -/
  setFails : Bool := false
  totpKey : SealKey
  ssoKey : SealKey
  now : Int
  hashCode : String → String
  generatedCode : String
  validateEmailConfig : EmailConfig → List String
  sendFails : Bool := false
  /-- The code that could not be sent is not withdrawn. -/
  clearFails : Bool := false

namespace EmailArgs

def configuresEmail (a : EmailArgs) : Bool :=
  a.emailProvider.isSome || a.emailFrom.isSome || a.emailFromName.isSome || a.emailApiKey.isSome ||
    a.emailApiKeyFile.isSome || a.emailSecret.isSome || a.emailUsername.isSome ||
    a.emailDomain.isSome || a.emailEndpoint.isSome || a.emailTemplate.isSome

def toConfig (a : EmailArgs) (files : String → Except String String) :
    Except String EmailConfig := do
  let provider ← a.emailProvider.elim
    (.error "configure requires --email-provider when setting email") .ok
  let sender ← a.emailFrom.elim (.error "configure requires --email-from when setting email") .ok
  let apiKey ← match a.emailApiKeyFile with
    | some path =>
      match files path with
      | .ok content => .ok (some (.ofList (trim content.toList)))
      | .error e => .error ("failed to read key file " ++ path ++ ": " ++ e)
    | none => .ok a.emailApiKey
  return {
    provider, sender, apiKey
    fromName := a.emailFromName
    secret := a.emailSecret
    username := a.emailUsername
    domain := a.emailDomain
    endpoint := a.emailEndpoint
    templateId := a.emailTemplate }

end EmailArgs

/-! ## The command -/

/-- What an invocation decides about email. -/
inductive ConfigureEmail where
  | preserve (email : EmailConfig)
  | verify (code : String)
  | begin (email : EmailConfig)

def decideConfigureEmail (out : Outside) (settings : EmailArgs) (existing : Option EmailConfig) :
    Except String ConfigureEmail :=
  match settings.emailOtp with
  | some code => .ok (.verify code)
  | none =>
    if settings.configuresEmail then
      match settings.toConfig out.files with
      | .error msg => .error msg
      | .ok email =>
        let issues := out.validateEmailConfig email
        if issues = [] then .ok (.begin email)
        else .error ("email configuration invalid: " ++ "; ".intercalate issues)
    else match existing with
      | some email => .ok (.preserve email)
      | none => .error ("email is required: pass --email-provider and its credentials (the emailed " ++
          "second factor is the sign-in)")

/-- The exit code and the row that is left. -/
structure Outcome where
  exit : Nat
  stored : Option Row

/-- The stored configuration, as far as the command takes notice of it. -/
def existingConfig (out : Outside) (stored : Option Row) : Option Config :=
  if out.readFails then none else stored.bind (·.config)

def assemble (out : Outside) (args : ConfigureArgs) (existing : Option Config)
    (acmeRootCaPem : Option String) (email : Option EmailConfig) : Config where
  tunnelDomain := args.gathered.tunnelDomain
  adminDomain := args.gathered.adminDomain
  adminEmail := args.gathered.adminEmail
  acmeProvider := args.gathered.acmeProvider
  listenHttp := args.listenHttp
  listenHttps := args.listenHttps
  controlSocket := args.controlSocket
  acmeDirectory := args.gathered.acmeDirectory
  acmeEabKid := args.gathered.acmeEabKid
  acmeEabHmac := args.gathered.acmeEabHmac
  acmeRootCaPem := acmeRootCaPem
  acmeFallbackProviders := []
  usageFlushIntervalSecs := args.usageFlushInterval
  usageRetentionSecs := (existing.map (·.usageRetentionSecs)).getD defaultUsageRetention
  relayIps := (existing.map (·.relayIps)).getD []
  setupComplete := true
  email := email
  abuse := none
  account := ((existing.map Config.account).getD {}).generateMissingKeys out.totpKey out.ssoKey

/-- The last step: the configuration is written. -/
def finish (out : Outside) (stored : Option Row) (config : Config) : Outcome :=
  if out.saveFails then ⟨1, stored⟩ else ⟨0, saved config⟩

/-- The first of two runs that set email writes the configuration, too, and sends a code. -/
def beginEmail (out : Outside) (stored : Option Row) (config : Config) (email : EmailConfig) :
    Outcome :=
  if out.saveFails then ⟨1, stored⟩
  else if out.setFails then ⟨1, saved config⟩
  else
    let issued := withOtp (saved config) (some {
      codeHash := out.hashCode out.generatedCode
      expiresAt := out.now + otpTtlSecs
      attempts := 0
      maxAttempts := otpMaxAttempts
      pending := email })
    ⟨1, if out.sendFails && !out.clearFails then withOtp issued none else issued⟩

/-- The second run: the code is checked, a wrong one counted. -/
def verifyEmail (out : Outside) (stored : Option Row) (configWith : EmailConfig → Config)
    (code : String) : Outcome :=
  if out.otpReadFails then ⟨1, stored⟩
  else match (stored.map (·.otp)).getD (.ok none) with
    | .error () | .ok none => ⟨1, stored⟩
    | .ok (some pending) =>
      match pending.verifyAt out.hashCode code out.now with
      | (pending, .ok ()) => finish out stored (configWith pending.pending)
      | (pending, .error _) => ⟨1, if out.setFails then stored else withOtp stored (some pending)⟩

def configure (out : Outside) (args : ConfigureArgs) (stored : Option Row) : Outcome :=
  let existing := existingConfig out stored
  let existingEmail := existing.bind (·.email)
  match args.gathered.acmeRootCa.mapM out.files with
  | .error _ => ⟨1, stored⟩
  | .ok pem =>
    match decideConfigureEmail out args.emailSettings existingEmail with
    | .error _ => ⟨2, stored⟩
    | .ok (.preserve email) => finish out stored (assemble out args existing pem (some email))
    | .ok (.verify code) =>
      verifyEmail out stored (fun email => assemble out args existing pem (some email)) code
    | .ok (.begin email) => beginEmail out stored (assemble out args existing pem existingEmail) email

/-! ## What is kept -/

/-- The second account block is the first with keys for the empty ones. -/
structure AccountConfig.Filled (old new : AccountConfig) : Prop where
  rest : { new with totpKey := old.totpKey, ssoKey := old.ssoKey } = old
  totpKey : old.totpKey ≠ "" → new.totpKey = old.totpKey
  ssoKey : old.ssoKey ≠ "" → new.ssoKey = old.ssoKey

/-- The settings without a flag are the same. -/
structure Kept (old new : Config) : Prop where
  abuse : new.abuse = old.abuse
  acmeFallbackProviders : new.acmeFallbackProviders = old.acmeFallbackProviders
  account : old.account.Filled new.account
  relayIps : new.relayIps = old.relayIps
  usageRetentionSecs : new.usageRetentionSecs = old.usageRetentionSecs

/-- There is a row, and it cannot be read or is not parsed. -/
def Unreadable (out : Outside) (stored : Option Row) : Prop :=
  out.readFails = true ∨ ∃ row, stored = some row ∧ row.config = none

/-- A run keeps the settings it was not asked to change, and what it cannot read. -/
structure Keeps (out : Outside) (stored : Option Row) (run : Outcome) : Prop where
  settings : ∀ old new, stored.bind (·.config) = some old → run.stored.bind (·.config) = some new →
    Kept old new
  unreadable : Unreadable out stored → run.exit ≠ 0 ∨ run.stored = stored

/-- The row is read, and there is none or one with no setting that the command drops. -/
def Safe (out : Outside) (stored : Option Row) : Prop :=
  out.readFails = false ∧ ∀ row, stored = some row →
    ∃ old, row.config = some old ∧ old.abuse = none ∧ old.acmeFallbackProviders = []

section
variable {out : Outside} {args : ConfigureArgs} {stored : Option Row} {old new : Config}

theorem AccountConfig.filled_refl (a : AccountConfig) : a.Filled a := ⟨rfl, fun _ => rfl, fun _ => rfl⟩

theorem AccountConfig.filled_generateMissingKeys (a : AccountConfig) (totpKey ssoKey : SealKey) :
    a.Filled (a.generateMissingKeys totpKey ssoKey) :=
  ⟨rfl, fun h => if_neg h, fun h => if_neg h⟩

theorem AccountConfig.Filled.trans {a b c : AccountConfig} (h : a.Filled b) (h' : b.Filled c) :
    a.Filled c where
  rest := by
    rw [← h.rest, ← h'.rest]
  totpKey hne := by
    have hb := h.totpKey hne
    exact (h'.totpKey (hb ▸ hne)).trans hb
  ssoKey hne := by
    have hb := h.ssoKey hne
    exact (h'.ssoKey (hb ▸ hne)).trans hb

theorem Kept.trans {a b c : Config} (h : Kept a b) (h' : Kept b c) : Kept a c :=
  ⟨h'.abuse.trans h.abuse, h'.acmeFallbackProviders.trans h.acmeFallbackProviders,
    h.account.trans h'.account, h'.relayIps.trans h.relayIps,
    h'.usageRetentionSecs.trans h.usageRetentionSecs⟩

theorem Kept.refl (c : Config) : Kept c c := ⟨rfl, rfl, c.account.filled_refl, rfl, rfl⟩

/-- What is assembled from a configuration keeps its settings, but for two that it drops. -/
theorem kept_assemble_iff {pem : Option String} {email : Option EmailConfig} :
    Kept old (assemble out args (some old) pem email) ↔
      old.abuse = none ∧ old.acmeFallbackProviders = [] := by
  constructor
  · exact fun h => ⟨h.abuse.symm, h.acmeFallbackProviders.symm⟩
  · rintro ⟨habuse, hfallback⟩
    exact ⟨habuse.symm, hfallback.symm, old.account.filled_generateMissingKeys _ _, rfl, rfl⟩

/-! ## What a run leaves -/

/-- How a run ends: it fails with the configuration as it was; it has written one that it assembled,
but waits for the code of an email; or it has succeeded, in place of a configuration that it took
notice of or of a challenge. -/
inductive Ends (out : Outside) (args : ConfigureArgs) (stored : Option Row) : Outcome → Prop where
  | failed {run : Outcome} : run.exit ≠ 0 → run.stored.bind (·.config) = stored.bind (·.config) →
    Ends out args stored run
  | begun {run : Outcome} (pem : Option String) (email : Option EmailConfig) : run.exit ≠ 0 →
    run.stored.bind (·.config) = some (assemble out args (existingConfig out stored) pem email) →
    Ends out args stored run
  | succeeded (pem : Option String) (email : Option EmailConfig) :
    ((existingConfig out stored).isSome = true ∨
      ∃ row pending, stored = some row ∧ row.otp = .ok (some pending)) →
    Ends out args stored ⟨0, saved (assemble out args (existingConfig out stored) pem email)⟩

theorem finish_ends (pem : Option String) (email : Option EmailConfig)
    (h : (existingConfig out stored).isSome = true ∨
      ∃ row pending, stored = some row ∧ row.otp = .ok (some pending)) :
    Ends out args stored
      (finish out stored (assemble out args (existingConfig out stored) pem email)) := by
  unfold finish
  split
  · exact .failed one_ne_zero rfl
  · exact .succeeded pem email h

theorem verifyEmail_ends (pem : Option String) (code : String) :
    Ends out args stored (verifyEmail out stored
      (fun email => assemble out args (existingConfig out stored) pem (some email)) code) := by
  unfold verifyEmail
  split
  · exact .failed one_ne_zero rfl
  · split
    · exact .failed one_ne_zero rfl
    · exact .failed one_ne_zero rfl
    · next pending hpending =>
      have hrow : ∃ row pending, stored = some row ∧ row.otp = .ok (some pending) := by
        cases stored with
        | none => cases hpending
        | some row => exact ⟨row, pending, rfl, hpending⟩
      split
      · exact finish_ends pem _ (.inr hrow)
      · refine .failed one_ne_zero ?_
        dsimp only
        split <;> rfl

theorem beginEmail_ends (pem : Option String) (existing : Option EmailConfig) (email : EmailConfig) :
    Ends out args stored (beginEmail out stored
      (assemble out args (existingConfig out stored) pem existing) email) := by
  unfold beginEmail
  split
  · exact .failed one_ne_zero rfl
  · split
    · exact .begun pem existing one_ne_zero rfl
    · refine .begun pem existing one_ne_zero ?_
      dsimp only
      split <;> rfl

/-- Only a stored email block is preserved. -/
theorem existing_of_preserve {settings : EmailArgs} {existing : Option EmailConfig}
    {email : EmailConfig}
    (h : decideConfigureEmail out settings existing = .ok (.preserve email)) :
    existing = some email := by
  unfold decideConfigureEmail at h
  split at h
  · cases h
  · split at h
    · split at h
      · cases h
      · dsimp only at h
        split at h <;> cases h
    · split at h
      · cases h
        rfl
      · cases h

theorem configure_ends : Ends out args stored (configure out args stored) := by
  unfold configure
  dsimp only
  split
  · exact .failed one_ne_zero rfl
  · next pem _ =>
    split
    · exact .failed two_ne_zero rfl
    · next email hdecide =>
      obtain ⟨old, hold, -⟩ := Option.bind_eq_some_iff.mp (existing_of_preserve hdecide)
      exact finish_ends pem _ (.inl (Option.isSome_of_mem hold))
    · exact verifyEmail_ends pem _
    · exact beginEmail_ends pem _ _

/-! ## Running the command again -/

/-- What a run assembles from a safe row keeps its settings. -/
theorem Safe.existingConfig_eq (h : Safe out stored) :
    existingConfig out stored = stored.bind (·.config) := by
  rw [existingConfig, h.1, if_neg Bool.false_ne_true]

theorem Safe.kept (h : Safe out stored) (hold : stored.bind (·.config) = some old) :
    old.abuse = none ∧ old.acmeFallbackProviders = [] := by
  obtain ⟨row, hrow, hconfig⟩ := Option.bind_eq_some_iff.mp hold
  obtain ⟨old', hold', hsettings⟩ := h.2 row hrow
  rw [hconfig] at hold'
  cases hold'
  exact hsettings

theorem Safe.keeps (h : Safe out stored) {run : Outcome} (hrun : Ends out args stored run) :
    Keeps out stored run where
  settings old new hold hnew := by
    have hassemble (pem : Option String) (email : Option EmailConfig) :
        Kept old (assemble out args (existingConfig out stored) pem email) := by
      rw [h.existingConfig_eq, hold]
      exact kept_assemble_iff.mpr (h.kept hold)
    cases hrun with
    | failed _ hsame =>
      rw [hsame, hold] at hnew
      cases hnew
      exact .refl old
    | begun pem email _ hconfig =>
      rw [hconfig] at hnew
      cases hnew
      exact hassemble pem email
    | succeeded pem email _ =>
      cases hnew
      exact hassemble pem email
  unreadable hun := by
    rcases hun with hfails | ⟨row, hrow, hnone⟩
    · rw [h.1] at hfails
      cases hfails
    · obtain ⟨old, hold, -⟩ := h.2 row hrow
      rw [hnone] at hold
      cases hold

/-- A run on a safe row keeps what it was not asked to change; and a run that succeeds does so on safe
rows only. -/
theorem configure_keeps_iff (out : Outside) (args : ConfigureArgs) (stored : Option Row) :
    (Safe out stored → Keeps out stored (configure out args stored)) ∧
      ((configure out args stored).exit = 0 →
        (Keeps out stored (configure out args stored) ↔ Safe out stored)) := by
  have hends : Ends out args stored (configure out args stored) := configure_ends
  refine ⟨fun h => h.keeps hends, fun hexit => ⟨fun hkeeps => ?_, fun h => h.keeps hends⟩⟩
  generalize hrun : configure out args stored = run at hends hexit hkeeps
  cases hends with
  | failed hne _ => exact absurd hexit hne
  | begun _ _ hne _ => exact absurd hexit hne
  | succeeded pem email htaken =>
    have hun : ¬Unreadable out stored := by
      intro hun
      have hsame := (hkeeps.unreadable hun).resolve_left (absurd rfl)
      rcases hun with hfails | ⟨row, rfl, hnone⟩
      · rw [existingConfig, hfails, if_pos rfl] at htaken
        obtain ⟨row, pending, rfl, hotp⟩ := htaken.resolve_left (by simp)
        rw [← Option.some.inj hsame] at hotp
        cases hotp
      · rw [← Option.some.inj hsame] at hnone
        cases hnone
    rw [Unreadable, not_or, Bool.not_eq_true] at hun
    refine ⟨hun.1, fun row hrow => ?_⟩
    obtain ⟨old, hold⟩ := Option.ne_none_iff_exists'.mp fun hnone => hun.2 ⟨row, hrow, hnone⟩
    have hexisting : existingConfig out stored = some old := by
      rw [existingConfig, hun.1, if_neg Bool.false_ne_true, hrow]
      exact hold
    have hkept := hkeeps.settings old _ (hrow ▸ hold) rfl
    rw [hexisting] at hkept
    exact ⟨old, hold, kept_assemble_iff.mp hkept⟩

/-- Any number of runs that can read the row keep the settings, if there is none that is dropped. -/
theorem reruns_keep (runs : List (Outside × ConfigureArgs))
    (hread : ∀ r ∈ runs, r.1.readFails = false) (hold : stored.bind (·.config) = some old)
    (habuse : old.abuse = none) (hfallback : old.acmeFallbackProviders = []) :
    ∃ new, (runs.foldl (fun s r => (configure r.1 r.2 s).stored) stored).bind (·.config) =
      some new ∧ Kept old new := by
  have hrun (new : Config) (stored : Option Row) (hnew : stored.bind (·.config) = some new)
      (hkept : Kept old new) (rest : List (Outside × ConfigureArgs)) (hsub : rest ⊆ runs) :
      ∃ last, (rest.foldl (fun s r => (configure r.1 r.2 s).stored) stored).bind (·.config) =
        some last ∧ Kept old last := by
    induction rest generalizing stored new with
    | nil => exact ⟨new, hnew, hkept⟩
    | cons r rest ih =>
      have hsafe : Safe r.1 stored := by
        refine ⟨hread r (hsub List.mem_cons_self), fun row hrow => ⟨new, ?_, ?_, ?_⟩⟩
        · rw [hrow] at hnew
          exact hnew
        · exact hkept.abuse.trans habuse
        · exact hkept.acmeFallbackProviders.trans hfallback
      have hends : Ends r.1 r.2 stored (configure r.1 r.2 stored) := configure_ends
      have hkeeps := hsafe.keeps hends
      obtain ⟨next, hnext⟩ : ∃ next, (configure r.1 r.2 stored).stored.bind (·.config) =
          some next := by
        generalize configure r.1 r.2 stored = run at hends
        cases hends with
        | failed _ hsame => exact ⟨new, hsame.trans hnew⟩
        | begun pem email _ hconfig => exact ⟨_, hconfig⟩
        | succeeded pem email _ => exact ⟨_, rfl⟩
      exact ih next _ hnext (hkept.trans (hkeeps.settings new next hnew hnext))
        fun x hx => hsub (List.mem_cons_of_mem r hx)
  exact hrun old stored hold (.refl old) runs (List.Subset.refl runs)

end

/-! ## Sample runs -/

namespace Sample

def out : Outside where
  files _ := .error "no such file"
  totpKey := "11"
  ssoKey := "22"
  now := 0
  hashCode code := code
  generatedCode := "123456"
  validateEmailConfig _ := []

def args : ConfigureArgs where
  gathered := {
    tunnelDomain := "tunnel.example"
    adminDomain := "relay.example"
    adminEmail := "ops@relay.example"
    acmeProvider := "letsencrypt"
    acmeDirectory := none
    acmeEabKid := none
    acmeEabHmac := none
    acmeRootCa := none }
  listenHttp := ⟨.v4 0 0 0 0, 80⟩
  listenHttps := ⟨.v4 0 0 0 0, 443⟩
  controlSocket := "/run/weaver/control.sock"
  usageFlushInterval := 60
  emailSettings := {}

/-- A relay with its own addresses and a sealing key. -/
def config : Config where
  tunnelDomain := "tunnel.example"
  adminDomain := "relay.example"
  adminEmail := "ops@relay.example"
  acmeProvider := "letsencrypt"
  listenHttp := ⟨.v4 0 0 0 0, 80⟩
  listenHttps := ⟨.v4 0 0 0 0, 443⟩
  controlSocket := "/run/weaver/control.sock"
  relayIps := [.v4 203 0 113 7]
  email := some { provider := "resend", sender := "no-reply@relay.example" }
  account := { totpKey := "aa" }

/-- The same one with settings from the configuration file. -/
def tuned : Config := { config with abuse := some {}, acmeFallbackProviders := ["zerossl"] }

/-- A row that is no configuration, with a challenge. -/
def broken : Row where
  config := none
  otp := .ok (some {
    codeHash := "123456"
    expiresAt := 300
    attempts := 0
    maxAttempts := otpMaxAttempts
    pending := { provider := "resend", sender := "no-reply@relay.example" } })

end Sample

/-- Running the command again leaves a plain configuration as it was. -/
theorem configure_keeps_plain :
    (configure Sample.out Sample.args (saved Sample.config)).exit = 0 ∧
      Keeps Sample.out (saved Sample.config)
        (configure Sample.out Sample.args (saved Sample.config)) := by
  refine ⟨rfl, ((configure_keeps_iff _ _ _).2 rfl).mpr ⟨rfl, fun row hrow => ?_⟩⟩
  cases hrow
  exact ⟨Sample.config, rfl, rfl, rfl⟩

/-- The abuse block and the fallback providers are gone; and a configuration that does not parse is
written over. -/
theorem configure_drops_settings :
    ((configure Sample.out Sample.args (saved Sample.tuned)).exit = 0 ∧
      ¬Keeps Sample.out (saved Sample.tuned)
        (configure Sample.out Sample.args (saved Sample.tuned))) ∧
    let verify := { Sample.args with emailSettings := { emailOtp := some "123456" } }
    (configure Sample.out verify (some Sample.broken)).exit = 0 ∧
      ¬Keeps Sample.out (some Sample.broken)
        (configure Sample.out verify (some Sample.broken)) := by
  refine ⟨⟨rfl, fun h => ?_⟩, rfl, fun h => ?_⟩
  · have habuse := (h.settings Sample.tuned _ rfl rfl).abuse
    cases habuse
  · have hsame := (h.unreadable (.inr ⟨_, rfl, rfl⟩)).resolve_left (absurd rfl)
    cases hsame

end TunnelWeaver.Server.Configure
