import CallExchange.Exchange.Basic
import CallExchange.Proofs.Numerals
import Mathlib.Data.List.DropRight

set_option autoImplicit false

/-!
# Settings of an environment

Each setting is read from one variable of its own, and a text that cannot be read leaves the
default. So an exchange fails to come up only where a text is read and says something that is not
allowed: no calls at all, a name of blanks, or no time between two turns.
-/

namespace CallExchange

theorem Text.trimChars_eq_nil_iff {cs : List Char} :
    trimChars cs = [] ↔ ∀ c ∈ cs, isBlank c = true := by
  change (cs.dropWhile isBlank).rdropWhile isBlank = [] ↔ _
  rw [List.rdropWhile_eq_nil_iff]
  constructor
  · intro h c hc
    rw [← List.takeWhile_append_dropWhile (p := isBlank) (l := cs), List.mem_append] at hc
    rcases hc with hc | hc
    · exact List.mem_takeWhile_imp hc
    · exact h c hc
  · exact fun h c hc => h c ((List.dropWhile_suffix _).mem hc)

namespace Environment

/-- What comes of a text: what `Reads` makes of it, or `fallback` if that is nothing. -/
inductive Taken {τ : Type} (Reads : String → τ → Prop) (text : Option String) (fallback : τ) :
    τ → Prop where
  | given {s : String} {v : τ} (hs : text = some s) (hv : Reads s v) : Taken Reads text fallback v
  | absent (h : ∀ s v, text = some s → ¬ Reads s v) : Taken Reads text fallback fallback

theorem taken_getD {τ : Type} {Reads : String → τ → Prop} {parse : String → Option τ}
    (hparse : ∀ s v, parse s = some v ↔ Reads s v) (text : Option String) (fallback : τ) :
    Taken Reads text fallback ((text.bind parse).getD fallback) := by
  cases hv : text.bind parse with
  | none =>
    refine .absent fun s v hs hr => ?_
    rw [hs, Option.bind_some, (hparse s v).2 hr] at hv
    cases hv
  | some v =>
    obtain ⟨s, hs, hp⟩ := Option.bind_eq_some_iff.1 hv
    exact .given hs ((hparse s v).1 hp)

def ReadsWord (s : String) (w : UInt64) : Prop :=
  Text.Numeral.Denotes (Text.trimChars s.toList) w.toNat

def flagWords : Bool → List String
  | true => ["1", "true", "yes", "on"]
  | false => ["0", "false", "no", "off"]

def ReadsFlag (s : String) (b : Bool) : Prop := Text.keyword s ∈ flagWords b

def ReadsKind (s : String) (k : NotifierKind) : Prop := Text.keyword s = k.name

theorem word?_eq_some (s : String) (w : UInt64) :
    word? (Text.trimChars s.toList) = some w ↔ ReadsWord s w := by
  rw [word?, Option.map_eq_some_iff]
  constructor
  · rintro ⟨n, hn, rfl⟩
    obtain ⟨hd, hle⟩ := Text.Numeral.unsigned?_eq_some.1 hn
    rw [ReadsWord, UInt64.toNat_ofNat_of_lt' (Nat.lt_succ_of_le hle)]
    exact hd
  · intro h
    refine ⟨w.toNat, Text.Numeral.unsigned?_eq_some.2 ⟨h, Nat.le_of_lt_succ w.toNat_lt⟩, ?_⟩
    exact UInt64.ofNat_toNat

theorem flagOfKeyword?_eq_some (s : String) (b : Bool) :
    flagOfKeyword? (Text.keyword s) = some b ↔ ReadsFlag s b := by
  unfold ReadsFlag
  generalize Text.keyword s = w
  unfold flagOfKeyword?
  split <;> cases b <;> simp_all [flagWords]

theorem parse?_eq_some (s : String) (k : NotifierKind) :
    NotifierKind.parse? s = some k ↔ ReadsKind s k := by
  unfold ReadsKind NotifierKind.parse?
  generalize Text.keyword s = w
  split <;> cases k <;> simp_all [NotifierKind.name]

def HoldsZero (env : Environment) (key : String) : Prop :=
  ∃ s, env.text? key = some s ∧ Text.Numeral.IsZero (Text.trimChars s.toList)

def HoldsBlanks (env : Environment) (key : String) : Prop :=
  ∃ s, env.text? key = some s ∧ ∀ c ∈ s.toList, Text.isBlank c = true

theorem isZero_iff (s : String) :
    Text.Numeral.IsZero (Text.trimChars s.toList) ↔ ReadsWord s 0 :=
  Text.Numeral.denotes_zero_iff.symm

/-- A word read from a variable is zero where the text says so, and nowhere else. -/
theorem taken_zero_iff {env : Environment} {key : String} {fallback w : UInt64}
    (h : Taken ReadsWord (env.text? key) fallback w) (hne : fallback ≠ 0) :
    w = 0 ↔ env.HoldsZero key := by
  constructor
  · rintro rfl
    cases h with
    | given hs hv => exact ⟨_, hs, (isZero_iff _).2 hv⟩
    | absent => exact absurd rfl hne
  · rintro ⟨s, hs, hzero⟩
    have hread := (isZero_iff s).1 hzero
    cases h with
    | given hs' hv =>
      rw [hs] at hs'
      cases hs'
      exact UInt64.toNat_inj.1 (hv.unique hread)
    | absent hnone => exact absurd hread (hnone s 0 hs)

theorem not_readsWord {s : String}
    (h : (∃ cs, Text.trimChars s.toList = '-' :: cs) ∨
      ∃ n, Text.Numeral.Denotes (Text.trimChars s.toList) n ∧ UInt64.size ≤ n) (w : UInt64) :
    ¬ ReadsWord s w := by
  intro hread
  rcases h with ⟨cs, hcs⟩ | ⟨n, hn, hlarge⟩
  · rw [ReadsWord, hcs] at hread
    rcases hread.start with he | ⟨d, hd⟩
    · cases he
    · cases hd
  · have hsmall := w.toNat_lt
    rw [hread.unique hn] at hsmall
    exact absurd hlarge (Nat.not_le_of_lt hsmall)

end Environment

namespace Settings

inductive Item where
  | maxPending
  | reverseName
  | pumpInterval
  | notifier
  | warnOnDropped

def Item.key : Item → String
  | maxPending => "PORTCALL_MAX_PENDING_CALLS"
  | reverseName => "PORTCALL_REVERSE_PORT_NAME"
  | pumpInterval => "PORTCALL_PUMP_INTERVAL_MS"
  | notifier => "PORTCALL_NOTIFIER"
  | warnOnDropped => "PORTCALL_WARN_DROPPED"

def SameAt (s t : Settings) : Item → Prop
  | .maxPending => s.maxPending = t.maxPending
  | .reverseName => s.reverseName = t.reverseName
  | .pumpInterval => s.pumpInterval = t.pumpInterval
  | .notifier => s.notifier = t.notifier
  | .warnOnDropped => s.warnOnDropped = t.warnOnDropped

open Environment (Taken ReadsWord ReadsFlag ReadsKind)

/-- Every item is what is read from its own variable, or the default. -/
structure TakenFrom (env : Environment) (s : Settings) : Prop where
  maxPending : Taken ReadsWord (env.text? Item.maxPending.key) 65536 s.maxPending
  reverseName : Taken (fun t name => name = t) (env.text? Item.reverseName.key) "portcall.reverse"
    s.reverseName
  pumpInterval : ∃ ms, Taken ReadsWord (env.text? Item.pumpInterval.key) 10 ms ∧
    s.pumpInterval = Span.ofMillis ms
  notifier : Taken ReadsKind (env.text? Item.notifier.key) .eventFd s.notifier
  warnOnDropped : Taken ReadsFlag (env.text? Item.warnOnDropped.key) false s.warnOnDropped

variable {env env' : Environment} {s : Settings}

theorem notifierIn_fst (env : Environment) : (notifierIn env).1 =
    ((env.text? Item.notifier.key).bind NotifierKind.parse?).getD .eventFd := by
  unfold notifierIn Item.key
  cases env.text? "PORTCALL_NOTIFIER" with
  | none => rfl
  | some s =>
    rw [Option.bind_some]
    dsimp only
    cases NotifierKind.parse? s <;> rfl

theorem takenFrom_ofEnvironment (env : Environment) : TakenFrom env (ofEnvironment env).1 where
  maxPending := Environment.taken_getD Environment.word?_eq_some _ _
  reverseName := by
    have hsome : ∀ t name : String, some t = some name ↔ name = t :=
      fun t name => by rw [Option.some.injEq, eq_comm]
    have h := Environment.taken_getD hsome (env.text? Item.reverseName.key) "portcall.reverse"
    rwa [Option.bind_fun_some] at h
  pumpInterval := ⟨_, Environment.taken_getD Environment.word?_eq_some _ _, rfl⟩
  notifier := by
    change Taken _ _ _ (notifierIn env).1
    rw [notifierIn_fst]
    exact Environment.taken_getD Environment.parse?_eq_some _ _
  warnOnDropped := Environment.taken_getD Environment.flagOfKeyword?_eq_some _ _

theorem sameAt_ofEnvironment (x : Item) (h : env'.text? x.key = env.text? x.key) :
    (ofEnvironment env').1.SameAt (ofEnvironment env).1 x := by
  cases x with
  | maxPending =>
    change ((env'.text? Item.maxPending.key).bind _).getD _ = ((env.text? _).bind _).getD _
    rw [h]
    rfl
  | reverseName =>
    change (env'.text? Item.reverseName.key).getD _ = (env.text? _).getD _
    rw [h]
    rfl
  | pumpInterval =>
    refine congrArg Span.ofMillis ?_
    change ((env'.text? Item.pumpInterval.key).bind _).getD _ = ((env.text? _).bind _).getD _
    rw [h]
    rfl
  | notifier =>
    change (notifierIn env').1 = (notifierIn env).1
    rw [notifierIn_fst, notifierIn_fst, h]
  | warnOnDropped =>
    change ((env'.text? Item.warnOnDropped.key).bind _).getD _ = ((env.text? _).bind _).getD _
    rw [h]
    rfl

theorem isZero_ofMillis (ms : UInt64) : (Span.ofMillis ms).isZero = true ↔ ms = 0 := by
  constructor
  · intro h
    rw [Span.isZero, Bool.and_eq_true, decide_eq_true_iff, decide_eq_true_iff] at h
    obtain ⟨hseconds, hnanos⟩ := h
    have hdiv : ms.toNat / 1000 = 0 := congrArg UInt64.toNat hseconds
    have hmod : ms.toNat % 1000 * 1000000 = 0 := hnanos
    exact UInt64.toNat_inj.1 (show ms.toNat = 0 by omega)
  · rintro rfl
    rfl

theorem TakenFrom.isZero_iff (h : TakenFrom env s) :
    s.pumpInterval.isZero = true ↔ env.HoldsZero Item.pumpInterval.key := by
  obtain ⟨ms, hms, heq⟩ := h.pumpInterval
  rw [heq, isZero_ofMillis]
  exact Environment.taken_zero_iff hms (by decide)

theorem TakenFrom.blank_iff (h : TakenFrom env s) :
    Text.trimChars s.reverseName.toList = [] ↔ env.HoldsBlanks Item.reverseName.key := by
  have hname := h.reverseName
  rw [Text.trimChars_eq_nil_iff]
  constructor
  · intro hblank
    generalize s.reverseName = name at hname hblank
    cases hname with
    | given hs hv => exact ⟨_, hs, hv ▸ hblank⟩
    | absent => exact absurd (hblank 'p' (by decide)) (by decide)
  · rintro ⟨t, ht, hblank⟩
    generalize s.reverseName = name at hname ⊢
    cases hname with
    | given hs hv =>
      rw [ht] at hs
      cases hs
      rwa [hv]
    | absent hnone => exact absurd rfl (hnone t t ht)

/-- What an exchange does that is to come up with the settings of `env`: the first of three texts
that says what is not allowed keeps it down, and nothing else does. -/
structure ComesUp (env : Environment) (r : Except Fault Exchange) : Prop where
  noCalls : r = .error (.invalidSettings "max_pending_calls must be > 0") ↔
    env.HoldsZero Item.maxPending.key
  noName : r = .error (.invalidSettings "reverse_port_name must not be empty") ↔
    ¬ env.HoldsZero Item.maxPending.key ∧ env.HoldsBlanks Item.reverseName.key
  noTime : r = .error (.invalidSettings "pump_interval must be > 0") ↔
    ¬ env.HoldsZero Item.maxPending.key ∧ ¬ env.HoldsBlanks Item.reverseName.key ∧
      env.HoldsZero Item.pumpInterval.key
  up : (∃ x, r = .ok x) ↔
    ¬ env.HoldsZero Item.maxPending.key ∧ ¬ env.HoldsBlanks Item.reverseName.key ∧
      ¬ env.HoldsZero Item.pumpInterval.key
  only : ∀ e, r = .error e → ∃ why, e = .invalidSettings why

theorem TakenFrom.comesUp (h : TakenFrom env s) : ComesUp env (Exchange.create s) := by
  have hcalls := Environment.taken_zero_iff h.maxPending (by decide)
  have hname := List.isEmpty_iff.trans h.blank_iff
  have htime := h.isZero_iff
  by_cases hc : s.maxPending = 0
  · have hr : Exchange.create s = .error (.invalidSettings "max_pending_calls must be > 0") := by
      rw [Exchange.create, check, if_pos hc]
      rfl
    rw [hr]
    constructor <;> simp [hcalls.1 hc]
  rw [hcalls] at hc
  by_cases hn : (Text.trimChars s.reverseName.toList).isEmpty = true
  · have hr : Exchange.create s =
        .error (.invalidSettings "reverse_port_name must not be empty") := by
      rw [Exchange.create, check, if_neg (mt hcalls.1 hc), if_pos hn]
      rfl
    rw [hr]
    constructor <;> simp [hc, hname.1 hn]
  by_cases ht : s.pumpInterval.isZero = true
  · have hr : Exchange.create s = .error (.invalidSettings "pump_interval must be > 0") := by
      rw [Exchange.create, check, if_neg (mt hcalls.1 hc), if_neg hn, if_pos ht]
      rfl
    rw [hname] at hn
    rw [hr]
    constructor <;> simp [hc, hn, htime.1 ht]
  · have hr : ∃ x, Exchange.create s = .ok x := by
      rw [Exchange.create, check, if_neg (mt hcalls.1 hc), if_neg hn, if_neg ht]
      exact ⟨_, rfl⟩
    obtain ⟨x, hr⟩ := hr
    rw [hname] at hn
    rw [htime] at ht
    rw [hr]
    constructor <;> simp [hc, hn, ht]

/-- Whatever the environment: every setting is what is read from its own variable, or the default,
and depends on no other variable; an exchange with these settings comes up unless one of three texts
says zero or is blank, of which the first is reported; and the limit and the time between two turns
are zero only where such a text says so, never where a text is negative, too large or no number. -/
theorem environment_governs_settings (env : Environment) :
    let s := (ofEnvironment env).1
    TakenFrom env s ∧
      (∀ x env', env'.text? (Item.key x) = env.text? x.key → (ofEnvironment env').1.SameAt s x) ∧
      ComesUp env (Exchange.create s) ∧
      (s.maxPending = 0 ↔ env.HoldsZero Item.maxPending.key) ∧
      (s.pumpInterval.isZero = true ↔ env.HoldsZero Item.pumpInterval.key) ∧
      ∀ t, (Text.Numeral.IsZero (Text.trimChars t.toList) ↔ ReadsWord t 0) ∧
        ((∃ cs, Text.trimChars t.toList = '-' :: cs) ∨
          (∃ n, Text.Numeral.Denotes (Text.trimChars t.toList) n ∧ UInt64.size ≤ n) →
            ∀ w, ¬ ReadsWord t w) := by
  intro s
  have htaken : TakenFrom env s := takenFrom_ofEnvironment env
  exact ⟨htaken, fun x _ h => sameAt_ofEnvironment x h, htaken.comesUp,
    Environment.taken_zero_iff htaken.maxPending (by decide), htaken.isZero_iff,
    fun t => ⟨Environment.isZero_iff t, Environment.not_readsWord⟩⟩

/-- A limit below zero is not read, and a time of zeros is: with the default limit an exchange is
kept down by the time alone. Where the time is set to something else the limit stays as it is. -/
theorem environment_governs_settings_of_zeros :
    let limit : String × Variable := ("PORTCALL_MAX_PENDING_CALLS", .text "-0")
    let env : Environment := ⟨[limit, ("PORTCALL_PUMP_INTERVAL_MS", .text " +00\n")]⟩
    let env' : Environment := ⟨[limit, ("PORTCALL_PUMP_INTERVAL_MS", .unreadable)]⟩
    (∀ w, ¬ ReadsWord "-0" w) ∧ env.HoldsZero Item.pumpInterval.key ∧
      Exchange.create (ofEnvironment env).1 =
        .error (.invalidSettings "pump_interval must be > 0") ∧
      (ofEnvironment env').1.SameAt (ofEnvironment env).1 .maxPending := by
  intro limit env env'
  obtain ⟨-, hsame, hup, -, -, htexts⟩ := environment_governs_settings env
  have hunread : ∀ w, ¬ ReadsWord "-0" w := (htexts "-0").2 (.inl ⟨['0'], by decide⟩)
  have hcalls : ¬ env.HoldsZero Item.maxPending.key := by
    rintro ⟨t, ht, hzero⟩
    cases ht
    exact hunread 0 ((htexts "-0").1.1 hzero)
  have hname : ¬ env.HoldsBlanks Item.reverseName.key := by
    rintro ⟨t, ht, -⟩
    cases ht
  have htime : env.HoldsZero Item.pumpInterval.key := ⟨" +00\n", rfl, 1, .inr (by decide)⟩
  exact ⟨hunread, htime, hup.noTime.2 ⟨hcalls, hname, htime⟩, hsame .maxPending env' rfl⟩

end Settings

end CallExchange
