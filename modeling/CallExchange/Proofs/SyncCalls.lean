import CallExchange.Codec.Tagged
import CallExchange.Proofs.Floor.Threads
import CallExchange.Proofs.Resolution

set_option autoImplicit false

/-!
# What a sync call comes to

A sync call ends with what there is to read of it: an abort of its entry or of the decoder, or what
the decoder made of its buffer. A success and an application error are handed on as they are, and
every abort is fatal. A buffer that cannot be read is a breach of protocol, as it is for a delivery
to a port.
-/

namespace CallExchange

variable {α ε : Type}

def Codec.found (codec : Codec α ε) (ended : Except Panic Buffer) : Except Panic (Decoded α ε) :=
  ended.bind codec.decodeBuffer

inductive Aborted : Except Panic (Decoded α ε) → String → Prop where
  | panic (p : Panic) : Aborted (.error p) p.message
  | tagged (message : String) : Aborted (.ok (.abort message)) message

namespace Reader

variable {found : Except Panic (Decoded α ε)} {result : CallResult α ε}

def verdict (r : Reader) : Except Panic (Decoded α ε) → CallResult α ε
  | .ok d => r.resultOf d
  | .error p => .error (.fatal (.observed r.thread r.task p.message))

theorem ofEntry_fst (r : Reader) (codec : Codec α ε) (ended : Except Panic Buffer) (x : Exchange) :
    (r.ofEntry codec ended x).1 = r.verdict (codec.found ended) := by
  cases ended with
  | error p => rfl
  | ok b =>
    have hfound : codec.found (.ok b) = codec.decodeBuffer b := rfl
    rw [hfound, Reader.ofEntry, Reader.readBuffer]
    dsimp only
    cases codec.decodeBuffer b with
    | error p => rfl
    | ok d => exact r.lift_fst d _

/-- How results are classified: successes and application errors are handed on, aborts are fatal,
and what cannot be read is a breach of protocol. -/
structure Classifies (r : Reader) (found : Except Panic (Decoded α ε)) (result : CallResult α ε) :
    Prop where
  success : ∀ a, result = .ok a ↔ found = .ok (.success a)
  application : ∀ e, result = .error (.application e) ↔ found = .ok (.application e)
  fatal : ∀ abort, result = .error (.fatal abort) ↔
    ∃ text, Aborted found text ∧ abort = .observed r.thread r.task text
  protocol : ∀ breach, result = .error (.protocol breach) ↔
    ∃ why, found = .ok (.malformed why) ∧ breach = r.task ++ ": " ++ why
  connected : result ≠ .error .disconnected

/-- How the result of a sync call is specified: what is neither a success nor an application error
is fatal and keeps its text, and nothing is a breach of protocol. -/
structure Specified (r : Reader) (found : Except Panic (Decoded α ε)) (result : CallResult α ε) :
    Prop where
  success : ∀ a, result = .ok a ↔ found = .ok (.success a)
  application : ∀ e, result = .error (.application e) ↔ found = .ok (.application e)
  fatal : ∀ text, Aborted found text ∨ found = .ok (.malformed text) →
    result = .error (.fatal (.observed r.thread r.task text))
  kept : ∀ breach, result ≠ .error (.protocol breach)
  connected : result ≠ .error .disconnected

theorem aborted_error (p : Panic) (text : String) :
    Aborted (.error p : Except Panic (Decoded α ε)) text ↔ text = p.message := by
  constructor
  · rintro ⟨⟩
    rfl
  · rintro rfl
    exact .panic p

theorem aborted_ok (d : Decoded α ε) (text : String) :
    Aborted (.ok d) text ↔ d = .abort text := by
  constructor
  · rintro ⟨⟩
    rfl
  · rintro rfl
    exact .tagged text

theorem classifies_verdict (r : Reader) (found : Except Panic (Decoded α ε)) :
    r.Classifies found (r.verdict found) := by
  cases found with
  | error p =>
    constructor <;> simp [verdict, aborted_error, eq_comm]
  | ok d =>
    cases d <;> constructor <;> simp [verdict, resultOf, aborted_ok, Abort.observed, eq_comm]

/-- The specification is met by every call but one whose buffer cannot be read. -/
theorem specified_verdict (r : Reader) (found : Except Panic (Decoded α ε)) :
    r.Specified found (r.verdict found) ↔ ∀ why, found ≠ .ok (.malformed why) := by
  have hc := r.classifies_verdict found
  constructor
  · rintro hs why rfl
    exact hs.kept _ ((hc.protocol _).2 ⟨why, rfl, rfl⟩)
  · intro hread
    refine ⟨hc.success, hc.application, ?_, ?_, hc.connected⟩
    · rintro text (habort | hmalformed)
      · exact (hc.fatal _).2 ⟨text, habort, rfl⟩
      · exact absurd hmalformed (hread text)
    · intro breach hbreach
      obtain ⟨why, hmalformed, -⟩ := (hc.protocol breach).1 hbreach
      exact hread why hmalformed

end Reader

namespace Floor

variable {f : Floor α ε} {task : String} {codec : Codec α ε} {i : Nat}

theorem finish_sync (thread : Option String) (hr : f.running[i]?.join = some (.sync task codec))
    (ended : Except Panic Buffer) :
    ∃ freed text, (f.apply thread (.finish i ended)).1 =
      .sync (Reader.verdict ⟨task, thread⟩ (codec.found ended)) freed text := by
  rw [finish_some thread ended hr, ← Reader.ofEntry_fst _ _ _ f.session.exchange]
  exact ⟨_, _, rfl⟩

/-- A sync call issued on any floor, whatever is done by whichever threads while its entry runs, and
however the entry ends. It answers, and what it answers is classified by what there was to read. It
is classified as specified if the buffer could be read, and only then. -/
theorem runBy_classifies (f : Floor α ε) (hd : f.session.dispatcher = true)
    (thread : Option String) (task : String) (codec : Codec α ε)
    (during : List (Option String × Move α ε)) (ended : Except Panic Buffer)
    (hentry : ∀ e ∈ during, ∀ ended, e.2 ≠ .finish f.running.length ended) :
    let g := runBy ((thread, .beginSync task codec) :: during) f
    ∃ result freed text,
      (g.apply thread (.finish f.running.length ended)).1 = .sync result freed text ∧
      Reader.Classifies ⟨task, thread⟩ (codec.found ended) result ∧
      (Reader.Specified ⟨task, thread⟩ (codec.found ended) result ↔
        ∀ why, codec.found ended ≠ .ok (.malformed why)) := by
  intro g
  have hbegun : (f.apply thread (.beginSync task codec)).2.running[f.running.length]?.join =
      some (.sync task codec) := by
    change (if f.session.dispatcher then _ else _ : Turn α ε).2.running[f.running.length]?.join = _
    rw [if_pos hd]
    exact congrArg Option.join List.getElem?_concat_length
  have hruns : g.running[f.running.length]?.join = some (.sync task codec) :=
    running_runBy (f := (f.apply thread (.beginSync task codec)).2) hbegun hentry
  obtain ⟨freed, text, hanswer⟩ := finish_sync thread hruns ended
  exact ⟨_, freed, text, hanswer, Reader.classifies_verdict _ _, Reader.specified_verdict _ _⟩

/-- A post while the entry runs, which then returns the buffer of an abort. -/
theorem runBy_classifies_abort : ∃ x, Exchange.create .standard = .ok x ∧
    let codec : Codec Int64 String := TaggedCodec.toCodec
      ⟨Value.int?, Value.text?, some ⟨int64OfBytes?, Text.Utf8.decode?⟩⟩
    let during : List (Option String × Move Int64 String) := [(none, .deliver ⟨0⟩ .null)]
    let ended : Except Panic Buffer := .ok (.abort "boom")
    let g := runBy ((some "main", .beginSync "d" codec) :: during) (start x)
    (start x : Floor Int64 String).session.dispatcher = true ∧
      (∀ e ∈ during, ∀ ended, e.2 ≠ .finish 0 ended) ∧
      ∃ freed text, (g.apply (some "main") (.finish 0 ended)).1 =
        .sync (.error (.fatal ⟨"d", "boom", "main"⟩)) freed text := by
  obtain ⟨x, hx⟩ : ∃ x, Exchange.create .standard = .ok x := ⟨_, rfl⟩
  refine ⟨x, hx, ?_⟩
  intro codec during ended g
  have hentry : ∀ e ∈ during, ∀ ended, e.2 ≠ .finish 0 ended := by
    simp [during]
  obtain ⟨result, freed, text, hanswer, hclass, -⟩ :=
    runBy_classifies (start x) rfl (some "main") "d" codec during ended hentry
  have hfatal : result = .error (.fatal ⟨"d", "boom", "main"⟩) :=
    (hclass.fatal _).2 ⟨"boom", .tagged "boom", rfl⟩
  rw [hfatal] at hanswer
  exact ⟨rfl, hentry, freed, text, hanswer⟩

/-- A buffer that has the tag of a success and no payload cannot be read, and what comes of it is
not fatal. -/
theorem sync_breaks_protocol : ∃ x, Exchange.create .standard = .ok x ∧
    let codec : Codec Int64 String := TaggedCodec.toCodec
      ⟨Value.int?, Value.text?, some ⟨int64OfBytes?, Text.Utf8.decode?⟩⟩
    let ended : Except Panic Buffer := .ok (.success [])
    let g : Floor Int64 String := ((start x).apply (some "main") (.beginSync "d" codec)).2
    codec.found ended = .ok (.malformed "bad sync success payload") ∧
      ∃ result freed text, (g.apply (some "main") (.finish 0 ended)).1 = .sync result freed text ∧
        result = .error (.protocol "d: bad sync success payload") ∧
        ¬ Reader.Specified ⟨"d", some "main"⟩ (codec.found ended) result := by
  obtain ⟨x, hx⟩ : ∃ x, Exchange.create .standard = .ok x := ⟨_, rfl⟩
  refine ⟨x, hx, ?_⟩
  intro codec ended g
  have hfound : codec.found ended = .ok (.malformed "bad sync success payload") := rfl
  have hruns : g.running[0]?.join = some (.sync "d" codec) := rfl
  obtain ⟨freed, text, hanswer⟩ := finish_sync (some "main") hruns ended
  have hverdict : Reader.verdict ⟨"d", some "main"⟩ (codec.found ended) =
      .error (.protocol "d: bad sync success payload") := rfl
  refine ⟨hfound, _, freed, text, hanswer, hverdict, ?_⟩
  rw [Reader.specified_verdict]
  exact fun hread => hread _ hfound

end Floor

end CallExchange
