import SysprimsPty.Found.Polling
import SysprimsPty.Master.Writer
import Mathlib.Tactic.Ring

/-!
# A PTY on a serial port

`SerialTty` opens a serial port with the settings that it was given. There is no process behind the
port: the slave accepts the default program only, and its child cannot be killed and ends when the port
can no longer be asked for its carrier. The reader polls the port until it has something to return;
what an idle port answers depends on the platform.

* `SerialTty.openpty`, `openpty_settings` — the opening, and the settings of an open port.
* `SerialChild.wait`, `wait_eq_some_iff` — the wait for the end of the port.
* `Reader.read`, `serial_reader_delivers` — any number of reads deliver what the port gives, in order,
  and none of them looks like an end of file.
-/

namespace SysprimsPty.Master

open SysprimsPty.Core
open SysprimsPty.Found

/-! ## Opening -/

/-- `serial2::CharSize` -/
inductive CharSize
  | bits5
  | bits6
  | bits7
  | bits8
  deriving DecidableEq

/-- `serial2::Parity` -/
inductive Parity
  | none
  | odd
  | even
  deriving DecidableEq

/-- `serial2::StopBits` -/
inductive StopBits
  | one
  | two
  deriving DecidableEq

/-- `serial2::FlowControl` -/
inductive FlowControl
  | none
  | xonXoff
  | rtsCts
  deriving DecidableEq

/-- Source: `serial.rs` `SerialTty` -/
structure SerialTty (S : Type) where
  port : S
  baud : UInt32
  charSize : CharSize
  parity : Parity
  stopBits : StopBits
  flowControl : FlowControl

/-- Source: `serial.rs` `SerialTty::new` -/
def SerialTty.new {S : Type} (port : S) : SerialTty S where
  port
  baud := 9600
  charSize := .bits8
  parity := .none
  stopBits := .one
  flowControl := .xonXoff

/-- The `serial2::Settings` of a port; `other` stands for what the crate does not set. -/
structure PortSettings (T : Type) where
  raw : Bool
  baud : UInt32
  charSize : CharSize
  parity : Parity
  stopBits : StopBits
  flowControl : FlowControl
  other : T

/-- An open port. -/
structure OpenPort (P T : Type) where
  port : P
  settings : PortSettings T
  readTimeout : Duration
  writeTimeout : Duration

/-- What `serial2` answers to an opening. -/
structure OpenSerial (P T : Type) where
  /-- `SerialPort::open` -/
  opened : Except String P
  /-- `port.get_configuration()` -/
  configuration : Except String (PortSettings T)
  /-- `settings.set_raw()` -/
  setRaw : PortSettings T → PortSettings T
  /-- `settings.set_baud_rate(baud)`, which fails for a rate that the platform does not know -/
  setBaudRate : UInt32 → Except String Unit
  /-- `port.set_configuration(&settings)` -/
  setConfiguration : Except String Unit
  /-- `port.set_read_timeout` -/
  setReadTimeout : Except String Unit
  /-- `port.set_write_timeout` -/
  setWriteTimeout : Except String Unit

/-- An error of `serial2`. -/
def orForeign {α : Type} (answer : Except String α) : Except Error α := answer.mapError .foreign

/-- Source: `serial.rs` `PtySystem for SerialTty`, `openpty` -/
def SerialTty.openpty {S P T : Type} (tty : SerialTty S) (answers : OpenSerial P T) :
    Except Error (OpenPort P T) := do
  let port ← orForeign answers.opened
  let settings ← orForeign answers.configuration
  let settings := answers.setRaw settings
  orForeign (answers.setBaudRate tty.baud)
  let settings := { settings with baud := tty.baud }
  let settings := { settings with charSize := tty.charSize }
  let settings := { settings with flowControl := tty.flowControl }
  let settings := { settings with parity := tty.parity }
  let settings := { settings with stopBits := tty.stopBits }
  orForeign answers.setConfiguration
  orForeign answers.setReadTimeout
  orForeign answers.setWriteTimeout
  .ok {
    port
    settings
    readTimeout := Duration.fromMillis 50
    writeTimeout := Duration.fromMillis 50 }

/-- **The settings of an open port** are those of the `SerialTty`, raw mode included. -/
theorem openpty_settings {S P T : Type} {tty : SerialTty S} {answers : OpenSerial P T}
    (hraw : ∀ settings, (answers.setRaw settings).raw = true) {port : OpenPort P T}
    (h : tty.openpty answers = .ok port) :
    port.settings = {
      raw := true
      baud := tty.baud
      charSize := tty.charSize
      parity := tty.parity
      stopBits := tty.stopBits
      flowControl := tty.flowControl
      other := port.settings.other } := by
  unfold SerialTty.openpty at h
  obtain ⟨_, -, h⟩ := bind_eq_ok_iff.mp h
  obtain ⟨settings, -, h⟩ := bind_eq_ok_iff.mp h
  obtain ⟨_, -, h⟩ := bind_eq_ok_iff.mp h
  obtain ⟨_, -, h⟩ := bind_eq_ok_iff.mp h
  obtain ⟨_, -, h⟩ := bind_eq_ok_iff.mp h
  obtain ⟨_, -, h⟩ := bind_eq_ok_iff.mp h
  obtain rfl := Except.ok.inj h
  simp [hraw settings]

/-! ## The child -/

/-- The pause between two reads of the carrier. -/
def carrierPause : Duration := Duration.fromSecs 5

/-- Wait from `now`, with the answers of `port.read_cd()`: the status, when it returns, and the answers
that are left.
Source: `serial.rs` `Child for SerialChild`, `wait` -/
def SerialChild.wait (now : Instant) :
    List (Except String Bool) → Option (ExitStatus × Instant × List (Except String Bool))
  | [] => none
  | answer :: answers =>
      let now := now + carrierPause
      match answer with
      | .error _ => some (ExitStatus.withExitCode 1, now, answers)
      | .ok _ => wait now answers

/-- **The wait for a port** returns code 1, at the first failure to read the carrier and
after one pause for each reading, whatever the carrier was; it returns in no other way. -/
theorem wait_eq_some_iff {now ended : Instant} {answers rest : List (Except String Bool)}
    {status : ExitStatus} :
    SerialChild.wait now answers = some (status, ended, rest) ↔
      status = ExitStatus.withExitCode 1 ∧ ∃ (carriers : List Bool) (e : String),
        answers = carriers.map .ok ++ .error e :: rest ∧
          ended = now + (carriers.length + 1) * carrierPause := by
  induction answers generalizing now with
  | nil => simp [SerialChild.wait]
  | cons answer answers ih =>
      rcases answer with e | carrier
      · show some (ExitStatus.withExitCode 1, now + carrierPause, answers) = _ ↔ _
        constructor
        · intro h
          obtain ⟨rfl, heq⟩ := Prod.mk.inj (Option.some.inj h)
          obtain ⟨rfl, rfl⟩ := Prod.mk.inj heq
          exact ⟨rfl, [], e, rfl, by simp⟩
        · rintro ⟨rfl, carriers, e', heq, rfl⟩
          rcases carriers with _ | ⟨carrier, carriers⟩
          · obtain ⟨-, rfl⟩ := List.cons.inj heq
            simp
          · cases (List.cons.inj heq).1
      · show SerialChild.wait (now + carrierPause) answers = _ ↔ _
        rw [ih]
        refine and_congr_right fun _ => ⟨?_, ?_⟩
        · rintro ⟨carriers, e, rfl, rfl⟩
          refine ⟨carrier :: carriers, e, rfl, ?_⟩
          show (_ : ℕ) = _
          rw [List.length_cons]
          ring
        · rintro ⟨carriers, e, heq, rfl⟩
          rcases carriers with _ | ⟨carrier', carriers⟩
          · cases (List.cons.inj heq).1
          · obtain ⟨-, rfl⟩ := List.cons.inj heq
            refine ⟨carriers, e, rfl, ?_⟩
            show (_ : ℕ) = _
            rw [List.length_cons]
            ring

/-! ## The reader -/

/-- What the descriptor of a port answers to a read; no data at all is `Ok(0)`. -/
inductive PortAnswer
  | data (bytes : List UInt8)
  /-- `ErrorKind::WouldBlock` -/
  | wouldBlock
  | failed (e : String)
  deriving DecidableEq

/-- What a read fails with. -/
inductive SerialReadError
  /-- `ErrorKind::UnexpectedEof`, "EOF on serial port" -/
  | unexpectedEof
  | failed (e : String)
  deriving DecidableEq

/-- The result of a read, if the answer ends it. -/
def Reader.result (cfgWindows : Bool) (answer : PortAnswer) :
    Option (Except SerialReadError (List UInt8)) :=
  match answer with
  -- on Windows this is a timeout without data
  | .data [] => if cfgWindows then none else some (.error .unexpectedEof)
  | .data bytes => some (.ok bytes)
  | .wouldBlock => none
  | .failed e => some (.error (.failed e))

/-- Source: `serial.rs` `Read for Reader` -/
def Reader.read (cfgWindows : Bool) (answers : List PortAnswer) :
    Option (Except SerialReadError (List UInt8) × List PortAnswer) :=
  pollUntil (Reader.result cfgWindows) answers

/-- Several reads, one after another. -/
def Reader.reads (cfgWindows : Bool) (n : ℕ) (answers : List PortAnswer) :
    Option (List (Except SerialReadError (List UInt8)) × List PortAnswer) :=
  pollCalls (Reader.result cfgWindows) n answers

/-- The data in an answer. -/
def PortAnswer.bytes : PortAnswer → List UInt8
  | .data bytes => bytes
  | .wouldBlock | .failed _ => []

/-- The data in a result. -/
def delivered (result : Except SerialReadError (List UInt8)) : List UInt8 :=
  match result with
  | .ok bytes => bytes
  | .error _ => []

/-- The read failed. -/
def isFailed (result : Except SerialReadError (List UInt8)) : Bool :=
  match result with
  | .ok _ => false
  | .error _ => true

/-- An answer that a read passes on as an error. -/
def PortAnswer.isError (cfgWindows : Bool) : PortAnswer → Bool
  | .data [] => !cfgWindows
  | .failed _ => true
  | .data (_ :: _) | .wouldBlock => false

/-- A result delivers the data of its answer, and an answer without a result has none. -/
theorem delivered_result (cfgWindows : Bool) (answer : PortAnswer) :
    (Reader.result cfgWindows answer).toList.flatMap delivered = answer.bytes := by
  rcases answer with (_ | ⟨b, bytes⟩) | _ | e
  · rcases cfgWindows with _ | _
    · rfl
    · rfl
  · simp [Reader.result, delivered, PortAnswer.bytes]
  · rfl
  · rfl

/-- A result is an error exactly if its answer is one. -/
theorem isFailed_result (cfgWindows : Bool) (answer : PortAnswer) :
    ((Reader.result cfgWindows answer).map isFailed).getD false = answer.isError cfgWindows := by
  rcases answer with (_ | ⟨b, bytes⟩) | _ | e
  · rcases cfgWindows with _ | _
    · rfl
    · rfl
  · rfl
  · rfl
  · rfl

/-- **A serial reader delivers what the port gives.** For either platform, every stream of answers of
the port and every number of reads that return: together they use up a beginning of the stream,
deliver its data in order, nothing lost and nothing twice, and fail once for each answer of it that is
an error (on Unix also for an `Ok(0)`, which on Windows is a timeout and is waited out); and no read
returns `Ok(0)`, which would be taken for the end of the stream.
Source: `serial.rs` `Read for Reader` -/
theorem serial_reader_delivers {cfgWindows : Bool} {n : ℕ} {answers rest : List PortAnswer}
    {results : List (Except SerialReadError (List UInt8))}
    (h : Reader.reads cfgWindows n answers = some (results, rest)) :
    results.length = n ∧ (.ok [] ∉ results) ∧
      ∃ used, answers = used ++ rest ∧
        results.flatMap delivered = used.flatMap PortAnswer.bytes ∧
        results.countP isFailed = used.countP (PortAnswer.isError cfgWindows) := by
  obtain ⟨used, rfl, rfl, hlength⟩ := pollCalls_eq_some h
  refine ⟨hlength, ?_, used, rfl, ?_, ?_⟩
  · intro hempty
    obtain ⟨answer, -, hresult⟩ := List.mem_filterMap.mp hempty
    rcases answer with (_ | ⟨b, bytes⟩) | _ | e
    · rcases cfgWindows with _ | _
      · cases hresult
      · cases hresult
    · cases hresult
    · cases hresult
    · cases hresult
  · rw [List.filterMap_eq_flatMap_toList, List.flatMap_assoc]
    exact congrArg used.flatMap (funext (delivered_result cfgWindows))
  · rw [List.countP_filterMap]
    exact congrArg (fun p => used.countP p) (funext (isFailed_result cfgWindows))

/-- A port that is idle before and between what it gives. -/
def idlePort : List PortAnswer := [.data [], .data [1, 2], .wouldBlock, .data [], .data [3]]

/-- Two reads on that port. -/
theorem serial_reader_delivers_idle :
    Reader.reads true 2 idlePort = some ([.ok [1, 2], .ok [3]], []) ∧
      ∃ used, idlePort = used ++ [] ∧ used.flatMap PortAnswer.bytes = [1, 2, 3] := by
  obtain ⟨-, -, used, hused, hbytes, -⟩ :=
    @serial_reader_delivers true 2 idlePort [] [.ok [1, 2], .ok [3]] rfl
  exact ⟨rfl, used, hused, hbytes.symm⟩

end SysprimsPty.Master
