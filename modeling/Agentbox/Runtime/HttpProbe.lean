import Agentbox.Base.Text
import Mathlib.Tactic

/-! # Reading an HTTP response

`runtime/http_probe/response.rs`: the reader of a response of at most 64 KiB, over a stream that
answers every read with bytes, a timeout or a failure. No bytes are the end of the stream. -/

namespace Agentbox.Runtime.HttpProbe

open Agentbox.Base.Text

def MAX_HTTP_RESPONSE_BYTES : Nat := 64 * 1024

structure HttpResponse where
  statusCode : Nat
  body : List UInt8
  deriving DecidableEq

inductive HttpProbeError
  | responseHeadersUnavailable
  | invalidResponseHeaders
  | responseTooLarge
  | responseBodyIncomplete
  | responseReadFailed
  deriving DecidableEq

/-! ### Headers -/

def CRLF : List UInt8 := [0x0D, 0x0A]

/-- `http_body_start`: the index after the first `\r\n\r\n`. -/
def httpBodyStart : List UInt8 → Option Nat
  | [] => none
  | b :: l =>
    if (CRLF ++ CRLF).isPrefixOf (b :: l) then some 4 else (httpBodyStart l).map (· + 1)

/-- `str::split` at each `\r\n`. -/
def splitLines : List Char → List (List Char)
  | [] => [[]]
  | '\r' :: '\n' :: l => [] :: splitLines l
  | c :: l =>
    match splitLines l with
    | [] => [[c]]
    | line :: lines => (c :: line) :: lines

def splitWhitespace (line : List Char) : List (List Char) :=
  (line.splitOnP isWhitespace).filter (· ≠ [])

/-- `str::parse::<usize>`. -/
def parseUsize (s : String) : Option Nat :=
  let digits := match s.toList with
    | '+' :: l => l
    | l => l
  if digits ≠ [] ∧ digits.all isAsciiDigit ∧ digitsValue digits < 2 ^ 64 then
    some (digitsValue digits)
  else none

/-- The last `content-length` of the lines, each of which has to be a number. -/
def contentLength : List (List Char) → Option Nat → Except HttpProbeError (Option Nat)
  | [], found => .ok found
  | line :: lines, found =>
    match line.dropWhile (· ≠ ':') with
    | [] => contentLength lines found
    | _ :: value =>
      if toAsciiLowercase (String.ofList (line.takeWhile (· ≠ ':'))) = "content-length" then
        match parseUsize (trim (String.ofList value)) with
        | some n => contentLength lines (some n)
        | none => .error .invalidResponseHeaders
      else contentLength lines found

def parseHttpResponseHeaders (headers : List UInt8) :
    Except HttpProbeError (Nat × Option Nat) :=
  match String.fromUTF8? headers.toByteArray with
  | none => .error .invalidResponseHeaders
  | some text =>
    match splitLines text.toList with
    | [] => .error .invalidResponseHeaders
    | statusLine :: lines =>
      match splitWhitespace statusLine with
      | version :: status :: _ =>
        if "HTTP/1.".toList.isPrefixOf version then
          match parseU16 (String.ofList status) with
          | some statusCode => (contentLength lines none).map fun n => (statusCode, n)
          | none => .error .invalidResponseHeaders
        else .error .invalidResponseHeaders
      | _ => .error .invalidResponseHeaders

theorem contentLength_error : ∀ {lines : List (List Char)} {found : Option Nat}
    {e : HttpProbeError}, contentLength lines found = .error e → e = .invalidResponseHeaders
  | [], _, _, h => by cases h
  | line :: lines, found, e, h => by
    rw [contentLength] at h
    split at h
    · exact contentLength_error h
    · split_ifs at h
      · split at h
        · exact contentLength_error h
        · exact (Except.error.inj h).symm
      · exact contentLength_error h

theorem parseHttpResponseHeaders_error {headers : List UInt8} {e : HttpProbeError}
    (h : parseHttpResponseHeaders headers = .error e) : e = .invalidResponseHeaders := by
  unfold parseHttpResponseHeaders at h
  split at h
  · exact (Except.error.inj h).symm
  · split at h
    · exact (Except.error.inj h).symm
    · next lines _ =>
      split at h
      · split_ifs at h
        · split at h
          · rcases hlength : contentLength lines none with e' | n
            · rw [hlength] at h
              cases h
              exact contentLength_error hlength
            · rw [hlength] at h
              cases h
          · exact (Except.error.inj h).symm
        · exact (Except.error.inj h).symm
      · exact (Except.error.inj h).symm

/-! ### The reader -/

/-- What a read of the stream answers. -/
inductive HostRead
  | bytes (l : List UInt8)
  | timedOut
  | failed

abbrev Stream := Nat → HostRead

structure HttpResponseReader where
  /-- The number of reads so far. -/
  position : Nat
  response : List UInt8

inductive HttpRead
  | data
  | end
  | timeout

def readChunk (stream : Stream) (r : HttpResponseReader) :
    Except HttpProbeError (HttpRead × HttpResponseReader) :=
  match stream r.position with
  | .bytes [] => .ok (.end, { r with position := r.position + 1 })
  | .bytes (b :: l) =>
    if MAX_HTTP_RESPONSE_BYTES < r.response.length + (b :: l).length then
      .error .responseTooLarge
    else .ok (.data, ⟨r.position + 1, r.response ++ b :: l⟩)
  | .timedOut => .ok (.timeout, { r with position := r.position + 1 })
  | .failed => .error .responseReadFailed

/-- What a chunk adds. -/
theorem readChunk_data {stream : Stream} {r r' : HttpResponseReader}
    (h : readChunk stream r = .ok (.data, r')) :
    r'.position = r.position + 1 ∧ r.response.length < r'.response.length ∧
      r'.response.length ≤ MAX_HTTP_RESPONSE_BYTES := by
  unfold readChunk at h
  split at h
  · cases h
  · next b l hread =>
    split_ifs at h with hlarge
    cases h
    rw [List.length_cons] at hlarge
    refine ⟨rfl, ?_, ?_⟩ <;>
    · rw [List.length_append, List.length_cons]
      omega
  · cases h
  · cases h

/-- A read without bytes adds nothing. -/
theorem readChunk_end {stream : Stream} {r r' : HttpResponseReader} {read : HttpRead}
    (h : readChunk stream r = .ok (read, r')) (hread : read ≠ .data) :
    r' = { r with position := r.position + 1 } := by
  unfold readChunk at h
  split at h
  · cases h
    rfl
  · split_ifs at h
    cases h
    exact absurd rfl hread
  · cases h
    rfl
  · cases h

/-- Chunks are read while the response has to grow. The result says whether it is enough, or the
stream has ended before. -/
def readWhile (stream : Stream) (grow : List UInt8 → Bool) (r : HttpResponseReader) :
    Except HttpProbeError (Bool × HttpResponseReader) :=
  if grow r.response then
    match _h : readChunk stream r with
    | .ok (.data, r') => readWhile stream grow r'
    | .ok (.end, r') | .ok (.timeout, r') => .ok (false, r')
    | .error e => .error e
  else .ok (true, r)
termination_by MAX_HTTP_RESPONSE_BYTES - r.response.length
decreasing_by
  have hdata := readChunk_data _h
  omega

section
variable {stream : Stream} {grow : List UInt8 → Bool} {r r' : HttpResponseReader}

theorem readWhile_stop (h : grow r.response = false) : readWhile stream grow r = .ok (true, r) := by
  rw [readWhile, h]
  rfl

theorem readWhile_data (h : grow r.response = true) (hchunk : readChunk stream r = .ok (.data, r')) :
    readWhile stream grow r = readWhile stream grow r' := by
  rw [readWhile, if_pos h]
  split
  all_goals
    rename_i heq
    rw [hchunk] at heq
    cases heq
  rfl

theorem readWhile_end (h : grow r.response = true) (hchunk : readChunk stream r = .ok (.end, r')) :
    readWhile stream grow r = .ok (false, r') := by
  rw [readWhile, if_pos h]
  split
  all_goals
    rename_i heq
    rw [hchunk] at heq
    cases heq
  rfl

theorem readWhile_timeout (h : grow r.response = true)
    (hchunk : readChunk stream r = .ok (.timeout, r')) :
    readWhile stream grow r = .ok (false, r') := by
  rw [readWhile, if_pos h]
  split
  all_goals
    rename_i heq
    rw [hchunk] at heq
    cases heq
  rfl

theorem readWhile_error {e : HttpProbeError} (h : grow r.response = true)
    (hchunk : readChunk stream r = .error e) : readWhile stream grow r = .error e := by
  rw [readWhile, if_pos h]
  split
  all_goals
    rename_i heq
    rw [hchunk] at heq
    cases heq
  rfl

end

def readHeaders (stream : Stream) (r : HttpResponseReader) :
    Except HttpProbeError (Nat × HttpResponseReader) := do
  let (_, r) ← readWhile stream (fun l => (httpBodyStart l).isNone) r
  match httpBodyStart r.response with
  | some bodyStart => return (bodyStart, r)
  | none => throw .responseHeadersUnavailable

def readDeclaredBody (stream : Stream) (bodyStart contentLength : Nat) (r : HttpResponseReader) :
    Except HttpProbeError HttpResponseReader :=
  -- an overflow of the sum is above the limit too
  if MAX_HTTP_RESPONSE_BYTES < bodyStart + contentLength then throw .responseTooLarge
  else do
    let (enough, r) ← readWhile stream (fun l => l.length < bodyStart + contentLength) r
    if enough then return { r with response := r.response.take (bodyStart + contentLength) }
    else throw .responseBodyIncomplete

def readUndeclaredBody (stream : Stream) (r : HttpResponseReader) :
    Except HttpProbeError HttpResponseReader := do
  let (_, r) ← readWhile stream (fun _ => true) r
  return r

def readResponse (stream : Stream) : Except HttpProbeError HttpResponse := do
  let (bodyStart, r) ← readHeaders stream ⟨0, []⟩
  let (statusCode, contentLength) ← parseHttpResponseHeaders (r.response.take bodyStart)
  let r ← match contentLength with
    | some contentLength => readDeclaredBody stream bodyStart contentLength r
    | none => readUndeclaredBody stream r
  return ⟨statusCode, r.response.drop bodyStart⟩

/-! ### The buffer -/

/-- The readers that chunks of a stream lead to. -/
inductive IsReached (stream : Stream) : HttpResponseReader → Prop
  | start : IsReached stream ⟨0, []⟩
  | chunk {r r' : HttpResponseReader} (hr : IsReached stream r)
      (h : readChunk stream r = .ok (.data, r')) : IsReached stream r'

/-- Every chunk brings a byte, and none brings more than fits. -/
theorem isReached_bounds {stream : Stream} {r : HttpResponseReader} (h : IsReached stream r) :
    r.position ≤ r.response.length ∧ r.response.length ≤ MAX_HTTP_RESPONSE_BYTES := by
  induction h with
  | start => exact ⟨le_rfl, Nat.zero_le _⟩
  | chunk hr h ih =>
    have hdata := readChunk_data h
    omega

/-- A reader that has read on has the response of one that chunks lead to, after one more read at
most. -/
theorem readWhile_isReached {stream : Stream} {grow : List UInt8 → Bool} {r r' : HttpResponseReader}
    {enough : Bool} (hr : IsReached stream r) (h : readWhile stream grow r = .ok (enough, r')) :
    ∃ s, IsReached stream s ∧ r'.response = s.response ∧ r'.position ≤ s.position + 1 := by
  by_cases hgrow : grow r.response = true
  · rcases hchunk : readChunk stream r with e | ⟨read, s⟩
    · rw [readWhile_error hgrow hchunk] at h
      cases h
    · cases read with
      | data =>
        rw [readWhile_data hgrow hchunk] at h
        exact readWhile_isReached (.chunk hr hchunk) h
      | «end» =>
        rw [readWhile_end hgrow hchunk] at h
        cases h
        exact ⟨r, hr, by rw [readChunk_end hchunk nofun], by rw [readChunk_end hchunk nofun]⟩
      | timeout =>
        rw [readWhile_timeout hgrow hchunk] at h
        cases h
        exact ⟨r, hr, by rw [readChunk_end hchunk nofun], by rw [readChunk_end hchunk nofun]⟩
  · rw [readWhile_stop (by simpa using hgrow)] at h
    cases h
    exact ⟨r, hr, rfl, Nat.le_succ _⟩
termination_by MAX_HTTP_RESPONSE_BYTES - r.response.length
decreasing_by
  have hdata := readChunk_data hchunk
  omega

end Agentbox.Runtime.HttpProbe
