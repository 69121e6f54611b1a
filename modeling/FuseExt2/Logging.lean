import FuseExt2.Handles
import FuseExt2.Strings

/-! Loggers: what a call writes to the file and the console, and what it allocates on the way.
What the C library formats is given as text. -/

namespace FuseExt2

open Heaps Assertion

namespace Logging

open Strings

def ascii (text : List Char) : List UInt8 := text.map fun c => UInt8.ofNat c.toNat

/-- `%d` -/
def decimal (n : Int) : List UInt8 :=
  (if n < 0 then ascii ['-'] else []) ++ ascii (Nat.toDigits 10 n.natAbs)

/-- `t_log`; `file` is the stream that it writes to, `programName` the address of a string. -/
structure LogRecord where
  file : Option Nat
  isActiveConsole : Bool
  detail : Nat
  programName : Nat
  pid : Int

/-- `%H`, `%M` and `%S` of a `struct tm`. -/
structure LocalTime where
  hour : Fin 24
  min : Fin 60
  sec : Fin 61

/-- What `time` and `ftime` give; `none` is an error. -/
structure Clock where
  time : Option LocalTime
  millitm : Option UInt16

/-- What a call writes: to a stream, and to the console. -/
structure Output where
  file : Option (Nat × List UInt8)
  console : List UInt8
  deriving DecidableEq

def Output.nothing : Output := ⟨none, []⟩

/-- `t_log_level` has no negative values, so it is compared as an unsigned number. -/
inductive LogLevel
  | trace
  | debug
  | info
  | warning
  | error
  deriving DecidableEq

def LogLevel.toNat : LogLevel → Nat
  | .trace => 0
  | .debug => 1
  | .info => 2
  | .warning => 3
  | .error => 4

def enumNames : List (List UInt8) :=
  [ascii ['T', 'R', 'A', 'C', 'E'], ascii ['D', 'E', 'B', 'U', 'G'], ascii ['I', 'N', 'F', 'O'],
    ascii ['W', 'A', 'R', 'N', 'I', 'N', 'G'], ascii ['E', 'R', 'R', 'O', 'R']]

def LOG_MAX_LENGTH_MESSAGE : Nat := 1024

def LOG_MAX_LENGTH_BUFFER : Nat := LOG_MAX_LENGTH_MESSAGE + 100

def twoDigits (n : Nat) : List UInt8 := [UInt8.ofNat (48 + n / 10), UInt8.ofNat (48 + n % 10)]

/-- `%H:%M:%S` -/
def strftime (logTm : LocalTime) : List UInt8 :=
  twoDigits logTm.hour ++ 58 :: twoDigits logTm.min ++ 58 :: twoDigits logTm.sec

/-- `%s:%hu` -/
def timeText (partialTime : List UInt8) (millitm : UInt16) : List UInt8 := partialTime ++ 58 :: decimal millitm.toNat

/-- `[%s] %s %s/(%d:%d): %s\n`; the number of the thread is unsigned. -/
def logLine (label time programName : List UInt8) (pid : Int) (threadId : UInt32) (message : List UInt8) : List UInt8 :=
  ascii ['['] ++ label ++ ascii [']', ' '] ++ time ++ ascii [' '] ++ programName ++ ascii ['/', '('] ++ decimal pid ++
    ascii [':'] ++ decimal ((threadId.toNat : Int).bmod (2 ^ 32)) ++ ascii [')', ':', ' '] ++ message ++ ascii ['\n']

section Calls

variable (allocator : Allocator (Buffer LogRecord)) (junk : UInt8)

def readLogger (logger : Nat) : Code LogRecord LogRecord := do
  match ← load logger with
  | .other record => pure record
  | .chars _ => fail .dangling

/-- `sprintf` and its variants: the text has to fit with the character that ends it. -/
def sprintf (buffer : Nat) (text : List UInt8) : Code LogRecord Unit := do
  let bytes ← readBuffer buffer
  if text.length < bytes.length then store buffer (.chars (text ++ 0 :: bytes.drop (text.length + 1)))
  else fail .dangling

/-- What is printed. -/
def errorShow (message : List UInt8) : Code LogRecord (List UInt8) := do
  let errorMessage ← malloc allocator (.chars (ascii ['[', '[', 'E', 'R', 'R', 'O', 'R', ']', ']'] ++ [0]))
  let length ← strlen errorMessage
  let errorMessage ← realloc allocator junk errorMessage (length + message.length + 1)
  strcatText errorMessage message
  let printed ← getString errorMessage 0
  free errorMessage
  pure printed

def errorGettingDate : List UInt8 :=
  ascii ['E', 'r', 'r', 'o', 'r', ' ', 'g', 'e', 't', 't', 'i', 'n', 'g', ' ', 'd', 'a', 't', 'e', '!']

def errorGettingTime : List UInt8 :=
  ascii ['E', 'r', 'r', 'o', 'r', ' ', 'g', 'e', 't', 't', 'i', 'n', 'g', ' ', 't', 'i', 'm', 'e', '!']

/-- The string, or NULL, and what is printed. -/
def temporalGetStringTime (clock : Clock) : Code LogRecord (Nat × List UInt8) := do
  let strTime ← malloc allocator (.chars
    (ascii ['h', 'h', ':', 'm', 'm', ':', 's', 's', ':', 'm', 'm', 'm', 'm'] ++ [0]))
  match clock.time with
  | none => do
    let printed ← errorShow allocator junk errorGettingDate
    pure (0, printed)
  | some logTm =>
    match clock.millitm with
    | none => do
      let printed ← errorShow allocator junk errorGettingTime
      pure (0, printed)
    | some millitm => do
      let partialTime ← malloc allocator (.chars (ascii ['h', 'h', ':', 'm', 'm', ':', 's', 's'] ++ [0]))
      sprintf partialTime (strftime logTm)
      let text ← getString partialTime 0
      sprintf strTime (timeText text millitm)
      free partialTime
      let length ← strlen strTime
      let strTime ← realloc allocator junk strTime (length + 1)
      pure (strTime, [])

/-- `enum_names[level]` -/
def logLevelAsString (level : Nat) : Code LogRecord (List UInt8) :=
  match enumNames[level]? with
  | some name => pure name
  | none => fail .dangling

/-- `for (i = 0; i < LOG_ENUM_SIZE; i++)`; `-1` is the largest number of the type. -/
def logLevelFromStringLoop (level : Nat) : List (List UInt8) → Nat → Code LogRecord Nat
  | [], _ => pure (2 ^ 32 - 1)
  | name :: names, i => do
    let text ← getString level 0
    if text.map tolower == name.map tolower then pure i else logLevelFromStringLoop level names (i + 1)

def logLevelFromString (level : Nat) : Code LogRecord Nat := logLevelFromStringLoop level enumNames 0

def isEnableLevelInLogger (level : Nat) (logger : LogRecord) : Bool := level ≥ logger.detail

/-- `sprintf(buffer, "[%s] %s %s/(%d:%d): %s\n", ...)`, and the line that is then in the buffer. -/
def formatLine (record : LogRecord) (message time buffer : Nat) (threadId : UInt32) : Code LogRecord (List UInt8) := do
  let label ← logLevelAsString record.detail
  let timeString ← getString time 0
  let programName ← getString record.programName 0
  let messageString ← getString message 0
  sprintf buffer (logLine label timeString programName record.pid threadId messageString)
  getString buffer 0

/-- `message` is what `vsprintf` makes of the template and the arguments. -/
def logWriteInLevel (logger level : Nat) (message : List UInt8) (clock : Clock) (threadId : UInt32) :
    Code LogRecord Output := do
  let record ← readLogger logger
  if isEnableLevelInLogger level record then
    let messageBuffer ← malloc allocator (.chars (List.replicate (LOG_MAX_LENGTH_MESSAGE + 1) junk))
    sprintf messageBuffer message
    let (time, printed) ← temporalGetStringTime allocator junk clock
    let buffer ← malloc allocator (.chars (List.replicate (LOG_MAX_LENGTH_BUFFER + 1) junk))
    let line ← formatLine record messageBuffer time buffer threadId
    free time
    free messageBuffer
    free buffer
    pure ⟨record.file.map fun file => (file, line), printed ++ if record.isActiveConsole then line else []⟩
  else pure Output.nothing

/-- `file` is none for NULL, and then what `fopen` gives. -/
def logCreate (file : Option (Option Nat)) (programName : List UInt8) (isActiveConsole : Bool) (detail : Nat)
    (pid : Int) : Code LogRecord Nat := do
  let logger ← malloc allocator (.other ⟨none, false, 0, 0, 0⟩)
  match file with
  | some none => do
    free logger
    pure 0
  | file => do
    let programName ← malloc allocator (.chars (programName ++ [0]))
    store logger (.other ⟨file.join, isActiveConsole, detail, programName, pid⟩)
    pure logger

def fclose (file : Option Nat) : Code LogRecord Unit :=
  match file with
  | some _ => pure ()
  | none => fail .dangling

def logDestroy (logger : Nat) : Code LogRecord Unit := do
  let record ← readLogger logger
  free record.programName
  fclose record.file
  free logger

def logTrace (logger : Nat) := logWriteInLevel allocator junk logger LogLevel.trace.toNat

def logDebug (logger : Nat) := logWriteInLevel allocator junk logger LogLevel.debug.toNat

def logInfo (logger : Nat) := logWriteInLevel allocator junk logger LogLevel.info.toNat

def logWarning (logger : Nat) := logWriteInLevel allocator junk logger LogLevel.warning.toNat

def logError (logger : Nat) := logWriteInLevel allocator junk logger LogLevel.error.toNat

end Calls

/-! What a call is for: the line it writes, and how long a line may get. -/

structure Logger where
  file : Option Nat
  isActiveConsole : Bool
  detail : Nat
  programName : List UInt8
  pid : Int

def fits (text : List UInt8) (size : Nat) : Except Heaps.Fault Unit :=
  if text.length ≤ size then .ok () else .error .dangling

def stringTime (clock : Clock) : Except Heaps.Fault (Option (List UInt8)) :=
  match clock.time, clock.millitm with
  | some logTm, some millitm => do
    let text := timeText (strftime logTm) millitm
    fits text 13
    .ok (some text)
  | _, _ => .ok none

/-- The line has the name of the level that the logger was made with. -/
def Logger.line (logger : Logger) (time : Option (List UInt8)) (message : List UInt8) (threadId : UInt32) :
    Except Heaps.Fault (List UInt8) :=
  match enumNames[logger.detail]? with
  | none => .error .dangling
  | some label =>
    match time with
    | none => .error .dangling
    | some time => do
      let line := logLine label time logger.programName logger.pid threadId message
      fits line LOG_MAX_LENGTH_BUFFER
      .ok line

def Logger.write (logger : Logger) (level : Nat) (message : List UInt8) (clock : Clock) (threadId : UInt32) :
    Except Heaps.Fault Output :=
  if level ≥ logger.detail then do
    fits message LOG_MAX_LENGTH_MESSAGE
    let time ← stringTime clock
    let line ← logger.line time message threadId
    .ok ⟨logger.file.map fun file => (file, line), if logger.isActiveConsole then line else []⟩
  else .ok Output.nothing

section Specs

variable {allocator : Allocator (Buffer LogRecord)} {junk : UInt8} {p : Nat} {text : List UInt8}

theorem ascii_ne_zero {cs : List Char} (h : ∀ c ∈ cs, 0 < c.toNat ∧ c.toNat < 256) : 0 ∉ ascii cs := by
  intro hmem
  obtain ⟨c, hc, hzero⟩ := List.mem_map.mp hmem
  have hlt := (h c hc).2
  have hnat := congrArg UInt8.toNat hzero
  rw [UInt8.toNat_ofNat_of_lt' hlt] at hnat
  exact absurd hnat (h c hc).1.ne'

theorem toNat_of_isDigit {c : Char} (h : c.isDigit = true) : 0 < c.toNat ∧ c.toNat < 256 := by
  rw [Char.isDigit, Bool.and_eq_true, decide_eq_true_iff, decide_eq_true_iff] at h
  have hlow : 48 ≤ c.val.toNat := UInt32.le_iff_toNat_le.mp h.1
  have hhigh : c.val.toNat ≤ 57 := UInt32.le_iff_toNat_le.mp h.2
  change 0 < c.val.toNat ∧ c.val.toNat < 256
  omega

theorem decimal_ne_zero (n : Int) : 0 ∉ decimal n := by
  intro hmem
  rcases List.mem_append.mp hmem with hmem | hmem
  · split_ifs at hmem
    · exact absurd hmem (by decide)
    · cases hmem
  · exact ascii_ne_zero (fun c hc => toNat_of_isDigit (Nat.isDigit_of_mem_toDigits (by decide) (by decide) hc)) hmem

theorem readLogger_spec (p : Nat) (record : LogRecord) :
    Spec (cell p (.other record)) (readLogger p) fun r => such (r = record) (cell p (.other record)) := by
  refine (load_spec p _).bind fun r => Spec.such ?_
  rintro rfl
  exact Spec.ret_of_le (le_such rfl le_rfl)

theorem sprintf_spec (p : Nat) {bytes : List UInt8} (hlt : text.length < bytes.length) (hnul : 0 ∉ text) :
    Spec (cell p (.chars bytes)) (sprintf p text) fun _ => isText p text := by
  refine (readBuffer_spec p bytes).bind fun r => Spec.such ?_
  rintro rfl
  rw [if_pos hlt]
  exact (store_spec p _ _).post fun _ => cell_le_isText p hnul _

theorem sprintf_fails (p : Nat) {bytes : List UInt8} (hle : bytes.length ≤ text.length) :
    Fails (cell p (.chars bytes)) (sprintf p text) := by
  refine (readBuffer_spec p bytes).bind_fails fun r => Fails.such ?_
  rintro rfl
  rw [if_neg (Nat.not_lt_of_le hle)]
  exact fails_fail _ _

theorem sprintf_computes (p : Nat) {bytes : List UInt8} {size : Nat} (hlen : bytes.length = size + 1)
    (hnul : 0 ∉ text) :
    Computes (cell p (.chars bytes)) (sprintf p text) (fits text size) fun _ _ => isText p text := by
  rw [fits]
  split_ifs with h
  · exact sprintf_spec p (by omega) hnul
  · exact sprintf_fails p (by omega)

/-- The string of the time, or the buffer that is lost when there is none. -/
def isTime (p : Nat) : Option (List UInt8) → Assertion (Buffer LogRecord)
  | some time => isText p time
  | none => any fun q => any fun v => such (p = 0) (cell q v)

theorem twoDigits_ne_zero {n : Nat} (hn : n < 100) : 0 ∉ twoDigits n := by
  have hdigit : ∀ k < 10, (0 : UInt8) ≠ UInt8.ofNat (48 + k) := by decide
  rw [twoDigits, List.mem_pair]
  rintro (h | h)
  · exact hdigit _ (by omega) h
  · exact hdigit _ (by omega) h

theorem strftime_ne_zero (logTm : LocalTime) : 0 ∉ strftime logTm := by
  have hhour := twoDigits_ne_zero (n := logTm.hour) (by omega)
  have hmin := twoDigits_ne_zero (n := logTm.min) (by omega)
  have hsec := twoDigits_ne_zero (n := logTm.sec) (by omega)
  simp [strftime, hhour, hmin, hsec]

theorem timeText_ne_zero {partialTime : List UInt8} (hnul : 0 ∉ partialTime) (millitm : UInt16) :
    0 ∉ timeText partialTime millitm := by
  simp [timeText, hnul, decimal_ne_zero]

theorem logLine_ne_zero {label time programName message : List UInt8} (hlabel : 0 ∉ label) (htime : 0 ∉ time)
    (hname : 0 ∉ programName) (hmessage : 0 ∉ message) (pid : Int) (threadId : UInt32) :
    0 ∉ logLine label time programName pid threadId message := by
  have hopen : 0 ∉ ascii ['['] := by decide
  have hclose : 0 ∉ ascii [']', ' '] := by decide
  have hspace : 0 ∉ ascii [' '] := by decide
  have hslash : 0 ∉ ascii ['/', '('] := by decide
  have hcolon : 0 ∉ ascii [':'] := by decide
  have hend : 0 ∉ ascii [')', ':', ' '] := by decide
  have hnewline : 0 ∉ ascii ['\n'] := by decide
  simp only [logLine, List.mem_append, hopen, hlabel, hclose, htime, hspace, hname, hslash, decimal_ne_zero, hcolon,
    hend, hmessage, hnewline, or_self, not_false_eq_true]

theorem errorShow_spec (message : List UInt8) (hnul : 0 ∉ message) :
    Spec 1 (errorShow allocator junk message) fun _ => 1 := by
  refine (malloc_spec allocator _).bind fun q => ?_
  have hprefix : 0 ∉ ascii ['[', '[', 'E', 'R', 'R', 'O', 'R', ']', ']'] := by decide
  refine (strlen_cell q hprefix []).bind fun r => Spec.such ?_
  rintro rfl
  refine (realloc_spec q _ _).bind fun q' => ?_
  rw [takeD_text]
  refine (strcatText_spec q' hprefix hnul (List.takeD_length ..).ge).bind fun _ => ?_
  refine (getString_spec q' (Nat.zero_le _)).bind fun r => Spec.such fun _ => ?_
  exact (freeText_spec q' _).bind fun _ => Spec.ret_of_le le_rfl

theorem temporalGetStringTime_computes (clock : Clock) :
    Computes 1 (temporalGetStringTime allocator junk clock) (stringTime clock)
      fun time r => such (time.isSome → r.2 = []) (isTime r.1 time) := by
  refine (malloc_spec allocator _).bind_computes fun q => ?_
  obtain ⟨time, millitm⟩ := clock
  have hlost : ∀ message, 0 ∉ message →
      Computes (cell q (.chars (ascii ['h', 'h', ':', 'm', 'm', ':', 's', 's', ':', 'm', 'm', 'm', 'm'] ++ [0])))
        (errorShow allocator junk message >>= fun printed => pure (0, printed))
        (.ok none : Except Heaps.Fault (Option (List UInt8)))
        fun time r => such (time.isSome → r.2 = []) (isTime r.1 time) := by
    intro message hnul
    show Spec _ _ _
    refine (errorShow_spec message hnul).acquire fun printed => Spec.ret_of_le ?_
    rw [one_mul]
    exact le_such (fun h => absurd h Bool.false_ne_true) (le_any q (le_any _ (le_such rfl le_rfl)))
  cases time with
  | none => exact hlost _ (by decide)
  | some logTm =>
    cases millitm with
    | none => exact hlost _ (by decide)
    | some millitm =>
      refine (malloc_spec allocator _).acquire_computes fun q' => ?_
      have hfit : (strftime logTm).length < (ascii ['h', 'h', ':', 'm', 'm', ':', 's', 's'] ++ [0]).length :=
        Nat.lt_succ_self 8
      refine (sprintf_spec q' hfit (strftime_ne_zero logTm)).step_computes fun _ => ?_
      refine (getString_spec q' (Nat.zero_le _)).call_computes ?_
      rw [List.drop_zero, mul_comm]
      have htext := timeText_ne_zero (strftime_ne_zero logTm) millitm
      refine Computes.bind ((sprintf_computes q rfl htext).frame _) fun _ _ _ => ?_
      rw [mul_comm]
      refine (freeText_spec q' _).release_computes fun _ => ?_
      refine (strlen_spec q _).bind_computes fun r => Computes.such ?_
      rintro rfl
      refine Spec.any fun rest => Spec.such fun hnul => (realloc_spec q _ _).bind fun q'' => Spec.ret_of_le ?_
      have hshrunk := takeD_text junk (timeText (strftime logTm) millitm) rest 0
      rw [Nat.add_zero] at hshrunk
      rw [hshrunk]
      exact le_such (fun _ => rfl) (cell_le_isText q'' hnul _)

theorem getString_null (P : Assertion (Buffer LogRecord)) : Fails P (getString 0 0) :=
  Fails.bind (Fails.bind (load_null P))

theorem enumNames_ne_zero {level : Nat} {label : List UInt8} (h : enumNames[level]? = some label) : 0 ∉ label := by
  have hall : ∀ name ∈ enumNames, 0 ∉ name := by decide
  exact hall label (List.mem_of_getElem? h)

theorem logLevelFromStringLoop_spec {P : Assertion (Buffer LogRecord)} (hp : Reads P p text)
    (names : List (List UInt8)) (i : Nat) :
    Spec P (logLevelFromStringLoop p names i) fun r => such
      (r = ((names.findIdx? fun name => text.map tolower == name.map tolower).map (i + ·)).getD (2 ^ 32 - 1)) P := by
  induction names generalizing i with
  | nil => exact Spec.ret_of_le (le_such rfl le_rfl)
  | cons name names ih =>
    refine (hp 0 (Nat.zero_le _)).bind fun r => Spec.such ?_
    rintro rfl
    rw [List.findIdx?_cons]
    split_ifs with hname
    · exact Spec.ret_of_le (le_such rfl le_rfl)
    · refine (ih (i + 1)).post fun r => such_le fun hr => le_such ?_ le_rfl
      rw [hr, Option.map_map]
      congr 2
      funext k
      exact Nat.add_right_comm i 1 k

theorem findIdx?_enumNames (level : LogLevel) :
    (enumNames.findIdx? fun name => text.map tolower == name.map tolower) = some level.toNat ↔
      ∃ name, enumNames[level.toNat]? = some name ∧ text.map tolower = name.map tolower := by
  have hnodup : (enumNames.map (List.map tolower)).Nodup := by decide
  rw [List.findIdx?_eq_some_iff_getElem]
  constructor
  · rintro ⟨hlt, hname, -⟩
    exact ⟨_, List.getElem?_eq_getElem hlt, beq_iff_eq.mp hname⟩
  · rintro ⟨name, hget, hname⟩
    obtain ⟨hlt, rfl⟩ := List.getElem?_eq_some_iff.mp hget
    refine ⟨hlt, beq_iff_eq.mpr hname, fun j hj hsame => ?_⟩
    have hlower := (beq_iff_eq.mp hsame).symm.trans hname
    have hlt' : level.toNat < (enumNames.map (List.map tolower)).length := by rwa [List.length_map]
    have hj' : j < (enumNames.map (List.map tolower)).length := hj.trans hlt'
    have hget' : (enumNames.map (List.map tolower))[j] = (enumNames.map (List.map tolower))[level.toNat] := by
      rw [List.getElem_map, List.getElem_map, hlower]
    exact hj.ne ((List.Nodup.getElem_inj_iff hnodup).mp hget')

/-- A name stands for its level in upper and lower case, and no other text for any level. -/
theorem logLevelFromString_spec {P : Assertion (Buffer LogRecord)} (hp : Reads P p text) :
    Spec P (logLevelFromString p) fun r => such
      (∀ level : LogLevel, r = level.toNat ↔
        ∃ name, enumNames[level.toNat]? = some name ∧ text.map tolower = name.map tolower) P := by
  refine (logLevelFromStringLoop_spec hp enumNames 0).post fun r => such_le fun hr => le_such (fun level => ?_) le_rfl
  rw [← findIdx?_enumNames, hr]
  cases hfind : enumNames.findIdx? fun name => text.map tolower == name.map tolower with
  | none =>
    have hne : 2 ^ 32 - 1 ≠ level.toNat := by cases level <;> decide
    simpa using hne
  | some k => simp

def isLogger (p : Nat) (logger : Logger) : Assertion (Buffer LogRecord) :=
  any fun name => cell p (.other ⟨logger.file, logger.isActiveConsole, logger.detail, name, logger.pid⟩) *
    isText name logger.programName

theorem formatLine_computes (logger : Logger) (name : Nat) {q t buffer : Nat} {message : List UInt8}
    {time : Option (List UInt8)} (threadId : UInt32) :
    Computes (cell buffer (.chars (List.replicate (LOG_MAX_LENGTH_BUFFER + 1) junk)) *
        (isTime t time * (isText q message * isText name logger.programName)))
      (formatLine ⟨logger.file, logger.isActiveConsole, logger.detail, name, logger.pid⟩ q t buffer threadId)
      (logger.line time message threadId) fun line r => such (r = line)
        (isText buffer line * (isTime t time * (isText q message * isText name logger.programName))) := by
  rw [formatLine, logLevelAsString, Logger.line]
  cases hlabel : enumNames[logger.detail]? with
  | none => exact Fails.bind (fails_fail _ _)
  | some label =>
    dsimp only
    rw [pure_bind, mul_left_comm]
    cases time with
    | none =>
      simp only [isTime, any_mul, such_mul]
      refine Fails.any fun _ => Fails.any fun _ => Fails.such ?_
      rintro rfl
      exact Fails.bind (getString_null _)
    | some time =>
      have hparts : isTime t (some time) * (cell buffer (.chars (List.replicate (LOG_MAX_LENGTH_BUFFER + 1) junk)) *
          (isText q message * isText name logger.programName)) ≤
          such (0 ∉ time) (such (0 ∉ message) (such (0 ∉ logger.programName) (isText t time *
            (isText name logger.programName * (isText q message *
              cell buffer (.chars (List.replicate (LOG_MAX_LENGTH_BUFFER + 1) junk))))))) := by
        refine (mul_le_mul' (isText_le t time) (mul_le_mul_right
          (mul_le_mul' (isText_le q message) (isText_le name logger.programName)) _)).trans ?_
        simp only [such_mul, mul_such]
        refine such_le fun hname => such_le fun hmessage => such_le fun htime => ?_
        exact le_such htime (le_such hmessage (le_such hname (le_of_eq (by ac_rfl))))
      refine Computes.pre
        (Computes.such fun htime => Computes.such fun hmessage => Computes.such fun hname => ?_) hparts
      refine (getString_spec t (Nat.zero_le _)).call_computes ?_
      rw [mul_left_comm]
      refine (getString_spec name (Nat.zero_le _)).call_computes ?_
      rw [mul_left_comm (isText t time), mul_left_comm (isText name _)]
      refine (getString_spec q (Nat.zero_le _)).call_computes ?_
      have hline := logLine_ne_zero (enumNames_ne_zero hlabel) htime hname hmessage logger.pid threadId
      rw [← mul_assoc, ← mul_assoc, mul_comm]
      refine Computes.bind ((sprintf_computes buffer List.length_replicate hline).frame _) fun _ _ _ => ?_
      refine ((getString_spec buffer (Nat.zero_le _)).frame _).post fun r => ?_
      rw [such_mul]
      exact such_le fun hr => le_such hr (le_of_eq (by rw [isTime]; ac_rfl))

/-- The line has the label of the call, as its comment says, only on the level of the logger. -/
theorem Logger.line_label_iff {logger : Logger} {time message line label : List UInt8} {threadId : UInt32}
    (h : logger.line (some time) message threadId = .ok line) (level : LogLevel)
    (hlabel : enumNames[level.toNat]? = some label) :
    line = logLine label time logger.programName logger.pid threadId message ↔ logger.detail = level.toNat := by
  rw [Logger.line] at h
  cases hdetail : enumNames[logger.detail]? with
  | none =>
    rw [hdetail] at h
    cases h
  | some written =>
    obtain ⟨hlt, hget⟩ := List.getElem?_eq_some_iff.mp hdetail
    obtain ⟨hlt', hget'⟩ := List.getElem?_eq_some_iff.mp hlabel
    have hnodup : enumNames.Nodup := by decide
    rw [hdetail] at h
    dsimp only at h
    rw [fits] at h
    split_ifs at h
    · cases h
      simp only [logLine, List.append_left_inj, List.append_right_inj]
      rw [← hget, ← hget', List.Nodup.getElem_inj_iff hnodup]
    · cases h

theorem logWriteInLevel_computes (p : Nat) (logger : Logger) (level : Nat) {message : List UInt8} (hnul : 0 ∉ message)
    (clock : Clock) (threadId : UInt32) :
    Computes (isLogger p logger) (logWriteInLevel allocator junk p level message clock threadId)
      (logger.write level message clock threadId) fun output r => such (r = output) (isLogger p logger) := by
  refine Computes.any fun name => (readLogger_spec p _).call_computes ?_
  rw [Logger.write]
  by_cases henabled : level ≥ logger.detail
  · rw [if_pos henabled, if_pos (by rw [isEnableLevelInLogger]; exact decide_eq_true henabled)]
    generalize hrecord : cell p (Buffer.other (⟨logger.file, logger.isActiveConsole, logger.detail, name, logger.pid⟩ :
      LogRecord)) = record
    refine Computes.pre (P := 1 * (record * isText name logger.programName)) ?_ (le_of_eq (one_mul _).symm)
    refine (malloc_spec allocator _).step_computes fun q => ?_
    refine Computes.bind ((sprintf_computes q List.length_replicate hnul).frame _) fun _ _ _ => ?_
    refine Computes.pre (P := 1 * (isText q message * (record * isText name logger.programName))) ?_
      (le_of_eq (one_mul _).symm)
    refine Computes.bind ((temporalGetStringTime_computes clock).frame _) fun time r _ => ?_
    obtain ⟨t, printed⟩ := r
    rw [such_mul]
    refine Computes.such fun hprinted => ?_
    refine Computes.pre (P := 1 * (record * (isTime t time * (isText q message * isText name logger.programName)))) ?_
      (le_of_eq (by rw [one_mul]; ac_rfl))
    refine (malloc_spec allocator _).step_computes fun buffer => ?_
    rw [mul_left_comm, mul_comm]
    refine Computes.bind ((formatLine_computes logger name threadId).frame _) fun line r hline => ?_
    rw [such_mul]
    refine Computes.such ?_
    rintro rfl
    cases time with
    | none =>
      rw [Logger.line] at hline
      split at hline
      · cases hline
      · cases hline
    | some time =>
      show Spec _ _ _
      refine Spec.pre (P := isText t time * (isText q message * (isText buffer r *
        (record * isText name logger.programName)))) ?_ (le_of_eq (by rw [isTime]; ac_rfl))
      refine (freeText_spec t time).release fun _ => ?_
      refine (freeText_spec q message).release fun _ => ?_
      refine (freeText_spec buffer r).release fun _ => ?_
      obtain rfl : printed = [] := hprinted rfl
      subst hrecord
      exact Spec.ret_of_le (le_such rfl (le_any name le_rfl))
  · rw [if_neg henabled, if_neg (by rw [isEnableLevelInLogger]; exact fun h => henabled (of_decide_eq_true h))]
    exact Spec.ret_of_le (le_such rfl (le_any name le_rfl))

theorem logCreate_spec (file : Option (Option Nat)) {programName : List UInt8} (hnul : 0 ∉ programName)
    (isActiveConsole : Bool) (detail : Nat) (pid : Int) (hfile : file ≠ some none) :
    Spec 1 (logCreate allocator file programName isActiveConsole detail pid)
      fun p => isLogger p ⟨file.join, isActiveConsole, detail, programName, pid⟩ := by
  refine (malloc_spec allocator _).bind fun p => ?_
  have hopened : Spec (cell p (.other ⟨none, false, 0, 0, 0⟩))
      (malloc allocator (.chars (programName ++ [0])) >>= fun name =>
        store p (.other ⟨file.join, isActiveConsole, detail, name, pid⟩) >>= fun _ => pure p)
      fun p => isLogger p ⟨file.join, isActiveConsole, detail, programName, pid⟩ := by
    refine (malloc_spec allocator _).acquire fun name => ?_
    rw [mul_comm]
    refine (store_spec p _ _).step fun _ => Spec.ret_of_le (le_any name (mul_le_mul_right ?_ _))
    exact cell_le_isText name hnul []
  cases file with
  | none => exact hopened
  | some opened =>
    cases opened with
    | none => exact absurd rfl hfile
    | some stream => exact hopened

theorem logCreate_null (programName : List UInt8) (isActiveConsole : Bool) (detail : Nat) (pid : Int) :
    Spec 1 (logCreate allocator (some none) programName isActiveConsole detail pid) fun _ => 1 :=
  (malloc_spec allocator _).bind fun p => (free_spec p _).bind fun _ => Spec.ret_of_le le_rfl

theorem logDestroy_computes (p : Nat) (logger : Logger) :
    Computes (isLogger p logger) (logDestroy p)
      (if logger.file.isSome then .ok () else .error .dangling : Except Heaps.Fault Unit) fun _ _ => 1 := by
  refine Computes.any fun name => (readLogger_spec p _).call_computes ?_
  rw [mul_comm]
  refine (freeText_spec name _).release_computes fun _ => ?_
  obtain ⟨file, isActiveConsole, detail, programName, pid⟩ := logger
  cases file with
  | none => exact Fails.bind (fails_fail _ _)
  | some stream => exact free_spec p _

end Specs

/-! Any sequence of calls on any number of loggers, which a caller names by the order in which
they were made. -/

inductive LogCommand
  | create (file : Option (Option Nat)) (programName : List UInt8) (isActiveConsole : Bool) (detail : Nat) (pid : Int)
  | write (level : LogLevel) (logger : Nat) (message : List UInt8) (clock : Clock) (threadId : UInt32)
  | destroy (logger : Nat)

def logAt (allocator : Allocator (Buffer LogRecord)) (junk : UInt8) :
    LogLevel → Nat → List UInt8 → Clock → UInt32 → Code LogRecord Output
  | .trace => logTrace allocator junk
  | .debug => logDebug allocator junk
  | .info => logInfo allocator junk
  | .warning => logWarning allocator junk
  | .error => logError allocator junk

def runLog (allocator : Allocator (Buffer LogRecord)) (junk : UInt8) (handles : List Nat) :
    LogCommand → Code LogRecord (Output × List Nat)
  | .create file programName isActiveConsole detail pid => do
    let p ← logCreate allocator file programName isActiveConsole detail pid
    pure (Output.nothing, handles ++ [p])
  | .write level logger message clock threadId => do
    let output ← logAt allocator junk level (handles.getD logger 0) message clock threadId
    pure (output, handles)
  | .destroy logger => do
    logDestroy (handles.getD logger 0)
    pure (Output.nothing, handles)

/-- Every logger, in order; none is NULL or a logger that is destroyed. -/
abbrev Loggers := List (Option Logger)

def serveLog (loggers : Loggers) : LogCommand → Except Heaps.Fault (Output × Loggers)
  | .create (some none) _ _ _ _ => .ok (Output.nothing, loggers ++ [none])
  | .create file programName isActiveConsole detail pid =>
    .ok (Output.nothing, loggers ++ [some ⟨file.join, isActiveConsole, detail, programName, pid⟩])
  | .write level logger message clock threadId =>
    match loggers.getD logger none with
    | some logger => do
      let output ← logger.write level.toNat message clock threadId
      .ok (output, loggers)
    | none => .error .dangling
  | .destroy k =>
    match loggers.getD k none with
    | some logger => if logger.file.isSome then .ok (Output.nothing, loggers.set k none) else .error .dangling
    | none => .error .dangling

/-- The texts end where they are said to, and the logger is there. -/
def LogCommand.allowed (loggers : Loggers) : LogCommand → Bool
  | .create _ programName _ _ _ => 0 ∉ programName
  | .write _ logger message _ _ => (loggers.getD logger none).isSome && decide (0 ∉ message)
  | .destroy logger => (loggers.getD logger none).isSome

section Runs

variable {allocator : Allocator (Buffer LogRecord)} {junk : UInt8}

theorem logAt_eq (level : LogLevel) (p : Nat) (message : List UInt8) (clock : Clock) (threadId : UInt32) :
    logAt allocator junk level p message clock threadId =
      logWriteInLevel allocator junk p level.toNat message clock threadId := by
  cases level with
  | trace => rfl
  | debug => rfl
  | info => rfl
  | warning => rfl
  | error => rfl

theorem runLog_serves (allocator : Allocator (Buffer LogRecord)) (junk : UInt8) :
    Serves (Holding isLogger) (runLog allocator junk) LogCommand.allowed serveLog := by
  intro handles (loggers : Loggers) command hallowed
  refine Computes.such fun hlen => ?_
  cases command with
  | create file programName isActiveConsole detail pid =>
    have hnul : 0 ∉ programName := of_decide_eq_true hallowed
    have hmade : file ≠ some none → Spec (held isLogger handles loggers)
        (runLog allocator junk handles (.create file programName isActiveConsole detail pid)) fun result =>
          such (result.1 = Output.nothing) (Holding isLogger result.2
            (loggers ++ [some ⟨file.join, isActiveConsole, detail, programName, pid⟩])) := by
      intro hfile
      exact (logCreate_spec file hnul isActiveConsole detail pid hfile).acquire fun p =>
        Spec.ret_of_le (le_such rfl (holding_append hlen p _))
    cases file with
    | none => exact hmade (Option.some_ne_none none).symm
    | some opened =>
      cases opened with
      | none =>
        show Spec _ _ _
        refine (logCreate_null programName isActiveConsole detail pid).acquire fun p =>
          Spec.ret_of_le (le_such rfl ?_)
        rw [one_mul]
        exact holding_append_none hlen p
      | some stream => exact hmade fun h => Option.some_ne_none stream (Option.some.inj h)
  | write level k message clock threadId =>
    obtain ⟨hk, hmessage⟩ := Bool.and_eq_true_iff.mp hallowed
    obtain ⟨logger, hlogger⟩ := Option.isSome_iff_exists.mp hk
    have hnul : 0 ∉ message := of_decide_eq_true hmessage
    have hfocus := held_focus (D := isLogger) hlen (getElem?_of_getD hlogger)
    rw [runLog, logAt_eq, serveLog, hlogger, hfocus]
    refine Computes.bind ((logWriteInLevel_computes _ logger _ hnul clock threadId).frame _) fun output r _ => ?_
    rw [such_mul]
    refine Computes.such ?_
    rintro rfl
    exact Spec.ret_of_le (le_such rfl (le_such hlen (le_of_eq hfocus.symm)))
  | destroy k =>
    obtain ⟨logger, hlogger⟩ := Option.isSome_iff_exists.mp hallowed
    have hfocus := held_focus (D := isLogger) hlen (getElem?_of_getD hlogger)
    rw [runLog, serveLog, hlogger, hfocus]
    dsimp only
    refine ((logDestroy_computes _ logger).frame _).call (fun _ _ hfile => ?_) fun fault hfile => ?_
    · split_ifs at hfile ⊢
      rw [one_mul]
      exact Spec.ret_of_le (le_such rfl (le_such (hlen.trans List.length_set.symm) le_rfl))
    · split_ifs at hfile ⊢
      exact congrArg _ (Except.error.inj hfile)

def sampleLogs : List LogCommand :=
  [.create (some (some 3)) (ascii ['a']) true LogLevel.debug.toNat 42,
    .write .info 0 (ascii ['h', 'i']) ⟨some ⟨1, 2, 3⟩, some 4⟩ 7, .write .trace 0 (ascii ['h', 'o']) ⟨none, none⟩ 7,
    .destroy 0]

def sampleLine : List UInt8 :=
  logLine (ascii ['D', 'E', 'B', 'U', 'G']) (timeText (strftime ⟨1, 2, 3⟩) 4) (ascii ['a']) 42 7 (ascii ['h', 'i'])

/-- Any sequence of calls on loggers that are there, in any heap: the calls write the lines of
the messages whose level is enabled, and all they allocate for it is given back; the run
ends in a fault where a text does not fit, there is no time, or a logger without a file
is destroyed. -/
theorem runLogs_refines (allocator : Allocator (Buffer LogRecord)) (junk : UInt8) {commands : List LogCommand}
    (hallowed : allowedAll LogCommand.allowed serveLog [] commands = true) (h : Heap (Buffer LogRecord)) :
    (∀ outputs loggers, serveAll serveLog [] commands = .ok (outputs, loggers) →
      ∃ handles h', runAll (runLog allocator junk) [] commands h = .ok ((outputs, handles), h') ∧
        handles.length = loggers.length ∧ (held isLogger handles loggers * exactly h.cells).holds h'.cells) ∧
      ∀ fault, serveAll serveLog [] commands = .error fault →
        ∃ fault', runAll (runLog allocator junk) [] commands h = .error fault' :=
  (runLog_serves allocator junk).run hallowed h

theorem runLogs_refines_sample :
    ∃ handles h', runAll (runLog (bump (Buffer LogRecord)) 0) [] sampleLogs (Heap.empty _) =
      .ok (([Output.nothing, ⟨some (3, sampleLine), sampleLine⟩, Output.nothing, Output.nothing], handles), h') ∧
      h'.cells = fun _ => none := by
  have hallowed : allowedAll LogCommand.allowed serveLog [] sampleLogs = true := rfl
  obtain ⟨handles, h', hrun, -, hend⟩ :=
    (runLogs_refines (bump (Buffer LogRecord)) 0 hallowed (Heap.empty _)).1 _ [none] rfl
  rw [held_of_forall (by simp), one_mul] at hend
  exact ⟨handles, h', hrun, hend⟩

end Runs

end Logging

end FuseExt2
