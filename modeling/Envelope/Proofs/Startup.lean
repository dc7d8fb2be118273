import Envelope.Proofs.Columns
import Envelope.Proofs.Configuration
import Envelope.Proofs.Numerals
import Envelope.Proofs.Trace
import Envelope.Settings

/-!
# Settings at the start of a process

Settings are checked once, when they are loaded; an executor checks its
parameters at every call, and the local key management system its secret.  Both
sides read the same texts: what is loaded is what the variables hold
(`Settings.executorConfig_of_holds`), and settings are loaded if and only if they
are sound (`Settings.validate_eq_ok_iff`), which no executor that was set up with
them can then refuse (`Settings.load_agrees`).
-/

namespace Envelope

/-! ## Variables -/

namespace Variable

/-- The value of the variable with a name in lower case, if it is set. -/
def value? (environment : Properties) (name : String) : Option String :=
  (lowerNames environment).get? name

variable {environment : Properties} {name value setting text : String}

theorem readSteps_eq_nil {fuel : Nat} {rest : List Char} (h : readSteps fuel rest = some []) :
    rest = [] := by
  unfold readSteps at h
  split at h
  · rfl
  · nomatch h
  · simp [Option.bind_eq_some_iff] at h
  · simp [Option.bind_eq_some_iff] at h
  · nomatch h

/-- A name without steps is that of the setting. -/
theorem setting_eq_of_ofName? (h : Path.ofName? name = some ⟨setting, []⟩) : name = setting := by
  obtain ⟨⟨setting', rest⟩, hname, h⟩ := Option.bind_eq_some_iff.mp h
  obtain ⟨steps, hsteps, h⟩ := Option.bind_eq_some_iff.mp h
  obtain ⟨rfl, rfl⟩ := Path.mk.inj (Option.some.inj h)
  unfold readName at hname
  rw [Option.ite_none_left_eq_some] at hname
  obtain ⟨rfl, hrest⟩ := Prod.mk.inj (Option.some.inj hname.2)
  have hdrop : name.toList.dropWhile isNameChar = [] := hrest.trans (readSteps_eq_nil hsteps)
  have hall := List.takeWhile_append_dropWhile (p := isNameChar) (l := name.toList)
  rw [hdrop, List.append_nil] at hall
  rw [hall, String.ofList_toList]

/-- Only the variable of a setting gives it a text. -/
theorem entry_eq_text (h : entry name value = (setting, .text text)) :
    name = setting ∧ value = text := by
  unfold entry at h
  split at h
  · simpa using h
  · rename_i setting' hname
    obtain ⟨rfl, hvalue⟩ := Prod.mk.inj h
    exact ⟨setting_eq_of_ofName? hname, Entry.text.inj hvalue⟩
  · nomatch (Prod.mk.inj h).2
  · nomatch (Prod.mk.inj h).2

theorem value?_of_entries (h : (entries environment).get? setting = some (.text text)) :
    value? environment setting = some text := by
  obtain ⟨⟨name, value⟩, hvariable, hentry⟩ := List.mem_map.mp (Dict.mem_of_get?_ofList h)
  obtain ⟨rfl, rfl⟩ := entry_eq_text hentry
  exact (Dict.mem_entries_iff _).mp hvariable

/-- What is no setting has not been set, if its name is a plain one. -/
theorem value?_eq_none (hplain : Path.ofName? setting = some ⟨setting, []⟩)
    (h : (entries environment).get? setting = none) : value? environment setting = none := by
  apply Option.eq_none_iff_forall_ne_some.mpr
  intro value hvalue
  have hvariable : (setting, value) ∈ (lowerNames environment).entries :=
    (Dict.mem_entries_iff _).mpr hvalue
  have hentry : entry setting value = (setting, .text value) := by
    unfold entry
    rw [hplain]
  exact Dict.not_mem_of_get?_ofList h (List.mem_map.mpr ⟨(setting, value), hvariable, hentry⟩)

end Variable

/-! ## Loading -/

namespace Settings

open Variable (value?)

/-- The entries of a configuration, each with the variable that it comes from. -/
def sources : List (String × String) := [
  (Parameter.kekName, "kek_name"),
  (Parameter.kmsType, "kms_type"),
  (Parameter.kmsKeyId, "kms_key_id"),
  (Parameter.dekAlgorithm, "dek_algorithm"),
  (Parameter.dekExpiryDays, "dek_expiry_days"),
  (Kms.Local.secretKey, "local_secret")]

/-- The entries whose variables are set, with their values. -/
def named (environment : Properties) : Properties :=
  Dict.ofList <| sources.filterMap fun (key, name) =>
    (value? environment name).map fun value => (key, value)

/-- Settings under which an executor can work. -/
structure Sound (settings : Settings) : Prop where
  kekName : ∀ name, settings.kekName = some name → Text.isBlank name = false
  algorithm : ∀ name, settings.dekAlgorithm = some name → (Algorithm.ofName? name).isSome
  expiry : ∃ days, Parameter.readExpiryDays settings.dekExpiryDays = .ok days
  secret : ∀ secret, settings.localSecret = some secret → Text.isBlank secret = false

variable {environment : Properties} {settings : Settings} {key value name : String}

theorem named_get?_iff : (named environment).get? key = some value ↔
    ∃ name, (key, name) ∈ sources ∧ value? environment name = some value := by
  have hkeys : sources.Pairwise fun a b => a.1 ≠ b.1 := by decide
  have hnodup : ((sources.filterMap fun (key, name) =>
      (value? environment name).map fun value => (key, value)).map Prod.fst).Nodup := by
    rw [List.Nodup, List.pairwise_map, List.pairwise_filterMap]
    refine hkeys.imp ?_
    intro a b hab a' ha b' hb
    obtain ⟨_, -, rfl⟩ := Option.map_eq_some_iff.mp ha
    obtain ⟨_, -, rfl⟩ := Option.map_eq_some_iff.mp hb
    exact hab
  unfold named
  rw [Dict.get?_ofList_eq_some_iff hnodup, List.mem_filterMap]
  constructor
  · rintro ⟨⟨key', name⟩, hsource, h⟩
    obtain ⟨value', hvalue, h⟩ := Option.map_eq_some_iff.mp h
    obtain ⟨rfl, rfl⟩ := Prod.mk.inj h
    exact ⟨name, hsource, hvalue⟩
  · rintro ⟨name, hsource, hvalue⟩
    exact ⟨(key, name), hsource, Option.map_eq_some_iff.mpr ⟨value, hvalue, rfl⟩⟩

theorem value?_of_readText {text : Option String}
    (hplain : Variable.Path.ofName? name = some ⟨name, []⟩)
    (h : readText (Variable.entries environment) name = .ok text) :
    value? environment name = text := by
  unfold readText at h
  split at h
  · rename_i habsent
    obtain rfl := Except.ok.inj h
    exact Variable.value?_eq_none hplain habsent
  · rename_i hpresent
    obtain rfl := Except.ok.inj h
    exact Variable.value?_of_entries hpresent
  · nomatch h

theorem not_any_iff {p : String → Bool} {text? : Option String} :
    ¬ text?.any p = true ↔ ∀ text, text? = some text → p text = false := by
  cases text? with
  | none => simp
  | some text => simp

theorem validate_eq_ok_iff : settings.validate = .ok () ↔ settings.Sound := by
  have htail : ((Parameter.readExpiryDays settings.dekExpiryDays).mapError Error.invalidExpiry >>=
        fun _ => if settings.localSecret.any Text.isBlank then throw Error.blankSecret else pure ())
        = .ok () ↔
      (∃ days, Parameter.readExpiryDays settings.dekExpiryDays = .ok days) ∧
        ∀ secret, settings.localSecret = some secret → Text.isBlank secret = false := by
    rw [bind_eq_ok_iff, ← not_any_iff, ← exists_and_right]
    apply exists_congr
    intro days
    rw [Program.mapError_eq_ok_iff, lastCheck_eq_ok_iff]
  have halgorithm (name : String) :
      ¬ (Algorithm.ofName? name).isNone = true ↔ (Algorithm.ofName? name).isSome = true := by
    rw [Option.isNone_iff_eq_none, Option.isSome_iff_ne_none]
  constructor
  · intro h
    unfold validate at h
    dsimp only at h
    rw [check_eq_ok_iff, not_any_iff] at h
    obtain ⟨hkek, h⟩ := h
    cases hname : settings.dekAlgorithm with
    | none =>
      rw [hname] at h
      obtain ⟨hexpiry, hsecret⟩ := htail.mp h
      exact ⟨hkek, fun name h => (nomatch hname.symm.trans h), hexpiry, hsecret⟩
    | some name =>
      rw [hname] at h
      obtain ⟨hknown, h⟩ := check_eq_ok_iff.mp h
      obtain ⟨hexpiry, hsecret⟩ := htail.mp h
      refine ⟨hkek, ?_, hexpiry, hsecret⟩
      intro name' hname'
      obtain rfl := Option.some.inj (hname.symm.trans hname')
      exact (halgorithm name).mp hknown
  · intro h
    unfold validate
    dsimp only
    rw [check_eq_ok_iff, not_any_iff]
    refine ⟨h.kekName, ?_⟩
    cases hname : settings.dekAlgorithm with
    | none => exact htail.mpr ⟨h.expiry, h.secret⟩
    | some name =>
      have hknown := (halgorithm name).mpr (h.algorithm name hname)
      exact check_eq_ok_iff.mpr ⟨hknown, htail.mpr ⟨h.expiry, h.secret⟩⟩

theorem load_eq_ok_iff : load environment = .ok settings ↔
    ofEntries (Variable.entries environment) = .ok settings ∧ settings.Sound := by
  unfold load
  rw [bind_eq_ok_iff]
  constructor
  · rintro ⟨settings', hentries, h⟩
    obtain ⟨_, hvalid, h⟩ := bind_eq_ok_iff.mp h
    obtain rfl := Except.ok.inj h
    exact ⟨hentries, validate_eq_ok_iff.mp hvalid⟩
  · rintro ⟨hentries, hsound⟩
    refine ⟨settings, hentries, ?_⟩
    rw [validate_eq_ok_iff.mpr hsound]
    rfl

/-- What is loaded is what the variables hold. -/
structure Holds (settings : Settings) (environment : Properties) : Prop where
  kekName : value? environment "kek_name" = settings.kekName
  kmsType : value? environment "kms_type" = settings.kmsType
  kmsKeyId : value? environment "kms_key_id" = settings.kmsKeyId
  dekAlgorithm : value? environment "dek_algorithm" = settings.dekAlgorithm
  dekExpiryDays : value? environment "dek_expiry_days" = settings.dekExpiryDays
  localSecret : value? environment "local_secret" = settings.localSecret

theorem holds_of_ofEntries (h : ofEntries (Variable.entries environment) = .ok settings) :
    settings.Holds environment := by
  obtain ⟨dekAlgorithm, halgorithm, h⟩ := exists_of_bind_eq_ok h
  obtain ⟨dekExpiryDays, hexpiry, h⟩ := exists_of_bind_eq_ok h
  obtain ⟨kekName, hkek, h⟩ := exists_of_bind_eq_ok h
  obtain ⟨kmsKeyId, hkey, h⟩ := exists_of_bind_eq_ok h
  obtain ⟨kmsType, htype, h⟩ := exists_of_bind_eq_ok h
  obtain ⟨localSecret, hsecret, h⟩ := exists_of_bind_eq_ok h
  obtain ⟨logLevel, -, h⟩ := exists_of_bind_eq_ok h
  obtain rfl := Except.ok.inj h
  exact {
    kekName := value?_of_readText (by decide) hkek
    kmsType := value?_of_readText (by decide) htype
    kmsKeyId := value?_of_readText (by decide) hkey
    dekAlgorithm := value?_of_readText (by decide) halgorithm
    dekExpiryDays := value?_of_readText (by decide) hexpiry
    localSecret := value?_of_readText (by decide) hsecret }

theorem executorConfig_of_holds (h : settings.Holds environment) :
    settings.executorConfig = named environment := by
  unfold executorConfig
  rw [← h.kekName, ← h.kmsType, ← h.kmsKeyId, ← h.dekAlgorithm, ← h.dekExpiryDays, ← h.localSecret]
  rfl

theorem named_get? (hsource : (key, name) ∈ sources) :
    (named environment).get? key = value? environment name := by
  have hunique : ∀ a ∈ sources, ∀ b ∈ sources, a.1 = b.1 → a.2 = b.2 := by decide
  apply Option.ext
  intro value
  rw [named_get?_iff]
  constructor
  · rintro ⟨name', hsource', hvalue⟩
    obtain rfl := hunique _ hsource _ hsource' rfl
    exact hvalue
  · intro hvalue
    exact ⟨name, hsource, hvalue⟩

end Settings

/-! ## Executors -/

/-- The names of the parameters of a rule. -/
def Parameter.names : List String :=
  [kekName, kmsType, kmsKeyId, dekAlgorithm, dekExpiryDays]

/-- Neither the rule nor its schema gives a parameter. -/
def Context.Silent (context : Context) : Prop :=
  ∀ key ∈ Parameter.names, context.params.get? key = none ∧ context.metadata.get? key = none

theorem Parameter.readKekName_eq_ok_iff {text? : Option String} {name : String} :
    readKekName text? = .ok name ↔ text? = some name ∧ name ≠ "" := by
  cases text? with
  | none => exact iff_of_false (fun h => nomatch h) fun h => nomatch h.1
  | some text =>
    show (if text = "" then _ else _) = _ ↔ _
    rw [Option.some.injEq]
    by_cases hempty : text = ""
    · rw [if_pos hempty]
      refine iff_of_false (fun h => nomatch h) ?_
      rintro ⟨rfl, hname⟩
      exact hname hempty
    · rw [if_neg hempty, Except.ok.injEq]
      refine (and_iff_left_of_imp ?_).symm
      rintro rfl
      exact hempty

theorem Cryptor.isSome_algorithm?_choose {name? : Option String} :
    (choose name?).algorithm?.isSome ↔
      ∀ name, name? = some name → (Algorithm.ofName? name).isSome := by
  cases name? with
  | none => exact iff_of_true (by decide) fun _ h => nomatch h
  | some name => simp [choose, algorithm?]

/-- The local driver connects if it finds a secret. -/
theorem Kms.Local.exists_connect_iff {σ : Type} {config : Properties} {url : String} {systems : σ} :
    (∃ client, (driver.connect config url systems).1 = .ok client) ↔
      ∃ secret, config.get? secretKey = some secret ∧ secret ≠ "" := by
  have hfound : (∃ secret, config.get? secretKey = some secret ∧ secret ≠ "") ↔
      ((config.get? secretKey).filter fun secret => secret ≠ "").isSome := by
    rw [Option.isSome_iff_exists]
    simp only [Option.filter_eq_some_iff, decide_eq_true_eq]
  rw [hfound]
  unfold driver
  dsimp only
  cases (config.get? secretKey).filter fun secret => secret ≠ "" with
  | none => exact iff_of_false (fun ⟨_, h⟩ => nomatch h) fun h => nomatch h
  | some secret => exact iff_of_true ⟨_, rfl⟩ rfl

namespace Executor

variable {κ : Type}

theorem parameter_of_silent {context : Context} (hsilent : context.Silent) {key : String}
    (hkey : key ∈ Parameter.names) (e : Executor κ) :
    e.parameter context key = e.config.get? key := by
  obtain ⟨hparams, hmetadata⟩ := hsilent key hkey
  rw [parameter, Context.parameter, hparams, hmetadata]
  rfl

theorem after_fresh [DecidableEq κ] (s : Setup κ) : fresh.after s = ⟨some s.client, s.config⟩ := by
  rw [after_of_takes inOrder_fresh (takes_fresh s)]
  exact congrArg _ (Dict.ofList_entries s.config)

/-- A parameter that no rule gives is the variable that it comes from. -/
theorem parameter_after_fresh [DecidableEq κ] {context : Context} (hsilent : context.Silent)
    {key name : String} (hkey : key ∈ Parameter.names) (hsource : (key, name) ∈ Settings.sources)
    (environment : Properties) (client : κ) :
    (fresh.after ⟨client, Settings.named environment⟩).parameter context key =
      Variable.value? environment name := by
  rw [parameter_of_silent hsilent hkey, after_fresh]
  exact Settings.named_get? hsource

/-- A parameter of a rule is given, and an executor refuses it. -/
def Refuses (e : Executor κ) (context : Context) : Prop :=
  (e.parameter context Parameter.kekName ≠ none ∧
    ∃ cause, Parameter.readKekName (e.parameter context Parameter.kekName) = .error cause) ∨
  (∃ cause,
    Parameter.readExpiryDays (e.parameter context Parameter.dekExpiryDays) = .error cause) ∨
  ∃ cause, (Cryptor.choose (e.parameter context Parameter.dekAlgorithm)).algorithm = .error cause

/-- An executor goes by the variables of an environment. -/
structure GoesBy (e : Executor κ) (environment : Properties) : Prop where
  /-- The configuration holds the values of the variables that are set. -/
  config : ∀ key value, e.config.get? key = some value ↔
    ∃ name, (key, name) ∈ Settings.sources ∧ Variable.value? environment name = some value
  /-- A key-encryption key is named if its variable is set. -/
  kekName : ∀ context : Context, context.Silent → ∀ name,
    Parameter.readKekName (e.parameter context Parameter.kekName) = .ok name ↔
      Variable.value? environment "kek_name" = some name
  /-- Keys expire after the number of days that is written, or never. -/
  expiry : ∀ context : Context, context.Silent → ∃ days,
    Parameter.readExpiryDays (e.parameter context Parameter.dekExpiryDays) = .ok days ∧
      ((Variable.value? environment "dek_expiry_days" = none ∧ days = 0) ∨
        ∃ text, Variable.value? environment "dek_expiry_days" = some text ∧
          Digits.Writes text days.toNat)
  /-- The algorithm is supported. -/
  algorithm : ∀ context : Context, context.Silent →
    (Cryptor.choose (e.parameter context Parameter.dekAlgorithm)).algorithm?.isSome
  /-- Local master keys can be used if the secret is set. -/
  secret : ∀ (σ : Type) (url : String) (systems : σ),
    (∃ client, (Kms.Local.driver.connect e.config url systems).1 = .ok client) ↔
      (Variable.value? environment "local_secret").isSome

end Executor

namespace Settings

open Executor (Setup fresh)

variable {κ : Type} [DecidableEq κ] {environment : Properties} {settings : Settings}

theorem ne_empty_of_not_blank {text : String} (h : Text.isBlank text = false) : text ≠ "" := by
  rintro rfl
  exact absurd h (by decide)

theorem goesBy_after_fresh (hsound : settings.Sound) (hholds : settings.Holds environment)
    (client : κ) : (fresh.after ⟨client, named environment⟩).GoesBy environment := by
  refine ⟨?_, ?_, ?_, ?_, ?_⟩
  · intro key value
    rw [Executor.after_fresh]
    exact named_get?_iff
  · intro context hsilent name
    rw [Executor.parameter_after_fresh hsilent (by decide) (by decide : (_, "kek_name") ∈ sources),
      Parameter.readKekName_eq_ok_iff, and_iff_left_iff_imp, hholds.kekName]
    intro hname
    exact ne_empty_of_not_blank (hsound.kekName name hname)
  · intro context hsilent
    rw [Executor.parameter_after_fresh hsilent (by decide)
      (by decide : (_, "dek_expiry_days") ∈ sources)]
    obtain ⟨days, hdays⟩ := hsound.expiry
    rw [← hholds.dekExpiryDays] at hdays
    exact ⟨days, hdays, Parameter.readExpiryDays_eq_ok_iff.mp hdays⟩
  · intro context hsilent
    rw [Executor.parameter_after_fresh hsilent (by decide)
      (by decide : (_, "dek_algorithm") ∈ sources), hholds.dekAlgorithm]
    exact Cryptor.isSome_algorithm?_choose.mpr hsound.algorithm
  · intro σ url systems
    rw [Kms.Local.exists_connect_iff, Executor.after_fresh]
    dsimp only
    rw [named_get? (by decide : (_, "local_secret") ∈ sources), hholds.localSecret,
      Option.isSome_iff_exists]
    apply exists_congr
    intro secret
    rw [and_iff_left_iff_imp]
    intro hsecret
    exact ne_empty_of_not_blank (hsound.secret secret hsecret)

theorem not_refuses_after_fresh (hsound : settings.Sound) (hholds : settings.Holds environment)
    (client : κ) {context : Context} (hsilent : context.Silent) :
    ¬ (fresh.after ⟨client, named environment⟩).Refuses context := by
  have hgoes := goesBy_after_fresh hsound hholds client
  rintro (⟨hgiven, cause, hrefused⟩ | ⟨cause, hrefused⟩ | ⟨cause, hrefused⟩)
  · rw [Executor.parameter_after_fresh hsilent (by decide)
      (by decide : (_, "kek_name") ∈ sources)] at hgiven
    obtain ⟨name, hname⟩ := Option.ne_none_iff_exists'.mp hgiven
    have hread := (hgoes.kekName context hsilent name).mpr hname
    nomatch hrefused.symm.trans hread
  · obtain ⟨days, hread, -⟩ := hgoes.expiry context hsilent
    nomatch hrefused.symm.trans hread
  · obtain ⟨algorithm, halgorithm⟩ := Option.isSome_iff_exists.mp (hgoes.algorithm context hsilent)
    unfold Cryptor.algorithm at hrefused
    rw [halgorithm] at hrefused
    nomatch hrefused

/-- Settings are checked as executors check their parameters.  An executor that is
set up with settings that were loaded takes them and goes by the variables, in
every context that gives no parameter of its own; and where it would refuse what a
variable holds, no settings are loaded. -/
theorem load_agrees (environment : Properties) (client : κ) :
    (∀ settings, load environment = .ok settings →
      let setup : Setup κ := ⟨client, settings.executorConfig⟩
      fresh.Takes setup ∧ (fresh.after setup).GoesBy environment) ∧
    ((∃ context : Context, context.Silent ∧
        (fresh.after ⟨client, named environment⟩).Refuses context) →
      ∃ cause, load environment = .error cause) := by
  constructor
  · intro settings hload setup
    obtain ⟨hentries, hsound⟩ := load_eq_ok_iff.mp hload
    have hholds := holds_of_ofEntries hentries
    have hsetup : setup = ⟨client, named environment⟩ :=
      congrArg (Setup.mk client) (executorConfig_of_holds hholds)
    refine ⟨Executor.takes_fresh setup, ?_⟩
    rw [hsetup]
    exact goesBy_after_fresh hsound hholds client
  · rintro ⟨context, hsilent, hrefuses⟩
    cases hload : load environment with
    | error cause => exact ⟨cause, rfl⟩
    | ok settings =>
      obtain ⟨hentries, hsound⟩ := load_eq_ok_iff.mp hload
      have hholds := holds_of_ofEntries hentries
      exact absurd hrefuses (not_refuses_after_fresh hsound hholds client hsilent)

/-- A name in mixed case and a number with a sign and zeros in front are taken;
an algorithm in lower case is not. -/
theorem load_agrees_signed :
    let environment : Properties := Dict.ofList [
      ("Kek_Name", " orders "), ("DEK_EXPIRY_DAYS", "+007"), ("LOCAL_SECRET", "s3cret")]
    let settings : Settings :=
      ⟨"info", some "s3cret", some " orders ", none, none, none, some "+007"⟩
    let e : Executor Nat := fresh.after ⟨0, settings.executorConfig⟩
    let context : Context := ⟨"orders-value", .write, ∅, ∅⟩
    load environment = .ok settings ∧
    Parameter.readKekName (e.parameter context Parameter.kekName) = .ok " orders " ∧
    Parameter.readExpiryDays (e.parameter context Parameter.dekExpiryDays) = .ok 7 ∧
    (∃ client, (Kms.Local.driver.connect e.config "local-kms://k" ()).1 = .ok client) ∧
    ∃ cause, load (environment.insert "DEK_ALGORITHM" "aes256_gcm") = .error cause := by
  intro environment settings e context
  have hload : load environment = .ok settings := by decide +kernel
  have hsilent : context.Silent := fun _ _ => ⟨rfl, rfl⟩
  obtain ⟨-, hgoes⟩ := (load_agrees environment 0).1 settings hload
  have hname : Variable.value? environment "kek_name" = some " orders " := by decide +kernel
  have hexpiry : Variable.value? environment "dek_expiry_days" = some "+007" := by decide +kernel
  have hsecret : (Variable.value? environment "local_secret").isSome := by decide +kernel
  refine ⟨hload, (hgoes.kekName context hsilent _).mpr hname, ?_,
    (hgoes.secret Unit "local-kms://k" ()).mpr hsecret, ?_⟩
  · obtain ⟨days, hread, ⟨hunset, -⟩ | ⟨text, htext, hwrites⟩⟩ := hgoes.expiry context hsilent
    · nomatch hexpiry.symm.trans hunset
    · obtain rfl := Option.some.inj (hexpiry.symm.trans htext)
      have hseven : Digits.readWord "+007" = some 7 := by decide
      rw [hread, Option.some.inj ((Digits.readWord_eq_some_iff.mpr hwrites).symm.trans hseven)]
  · apply (load_agrees (environment.insert "DEK_ALGORITHM" "aes256_gcm") 0).2
    refine ⟨context, hsilent, .inr (.inr ⟨.unsupportedAlgorithm "aes256_gcm", ?_⟩)⟩
    rw [Executor.after_fresh]
    decide +kernel

end Settings
end Envelope
