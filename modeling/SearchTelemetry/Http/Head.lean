import SearchTelemetry.Http.Framing
import SearchTelemetry.Http.Source
import SearchTelemetry.Http.Syntax
/-!
# Http.Head — the head of the next message

A head is read line by line up to its empty line, and is refused as soon as it is longer than a limit.  Empty lines in
front of it are skipped.  The bytes of a head are kept as they came; its parts are read out of them, and say how the body
is delimited.
-/
namespace SearchTelemetry
namespace Http

/-- What reading the next message comes to. -/
inductive Reading (α : Type) where
  /-- A message, and the stream behind it. -/
  | message (a : α) (rest : Source)
  /-- The stream ends before a message begins. -/
  | closed
  /-- The stream goes quiet before the message is whole. -/
  | quiet
  /-- There is no message to be had from the stream. -/
  | refused (fault : Fault)

namespace Reading

/-- What becomes of a message when more is read out of it. -/
def andThen {α β : Type} (r : Reading α) (f : α → Except Fault β) : Reading β :=
  match r with
  | message a rest =>
    match f a with
    | .ok b => message b rest
    | .error fault => refused fault
  | closed => closed
  | quiet => quiet
  | refused fault => refused fault

theorem source_of_andThen {α β : Type} {r : Reading α} {f : α → Except Fault β} {b : β} {rest : Source}
    (h : r.andThen f = message b rest) : ∃ a, r = message a rest := by
  unfold andThen at h
  split at h
  · split at h
    · cases h; exact ⟨_, rfl⟩
    · cases h
  all_goals cases h

end Reading

/-! ## The bytes of a head -/

/-- Why there is no head: it is longer than `max` bytes. -/
def headTooLong (max : Nat) : Fault :=
  .protocol ("message head exceeds " ++ Numeral.text max ++ " bytes")

/-- Why there is no head: the stream ends inside it. -/
def headCut : Fault :=
  .protocol "connection closed mid-head"

/-- The bytes of the next head, of at most `max` bytes, behind those in `acc`, which are in reverse. -/
def headLoop (max : Nat) (acc : List UInt8) (s : Source) : Reading (List UInt8) :=
  let line := s.readLine (max + 1 - acc.length)
  let collected := line.bytes.reverse ++ acc
  if max < collected.length then .refused (headTooLong max)
  else if _ : line.bytes = [] then
    match s.ending with
    | .quiet => .quiet
    | .closed => if acc.isEmpty then .closed else .refused headCut
  else if isEmptyLine line.bytes then
    if acc.isEmpty then headLoop max [] line.rest else .message collected.reverse line.rest
  else headLoop max collected line.rest
termination_by s.size
decreasing_by
  all_goals
    have : line.bytes.length + line.rest.size = s.size := Source.size_readLine _ s
    have := List.length_pos_iff.2 ‹¬line.bytes = []›
    show line.rest.size < s.size
    omega

/-- The bytes of the next head. -/
def readHead (max : Nat) (s : Source) : Reading (List UInt8) :=
  headLoop max [] s

/-- A head takes at least one byte from the stream. -/
theorem size_headLoop {max : Nat} {acc raw : List UInt8} {s rest : Source}
    (h : headLoop max acc s = .message raw rest) : rest.size < s.size := by
  fun_induction headLoop max acc s
  case case1 => cases h
  case case2 => cases h
  case case3 => cases h
  case case4 => cases h
  case case5 acc s line _ _ hb _ _ ih =>
    have : line.bytes.length + line.rest.size = s.size := Source.size_readLine _ s
    have := ih h
    omega
  case case6 acc s line _ _ hb _ _ =>
    cases h
    have : line.bytes.length + line.rest.size = s.size := Source.size_readLine _ s
    have := List.length_pos_iff.2 hb
    omega
  case case7 acc s line _ _ hb _ ih =>
    have : line.bytes.length + line.rest.size = s.size := Source.size_readLine _ s
    have := ih h
    omega

theorem size_readHead {max : Nat} {raw : List UInt8} {s rest : Source} (h : readHead max s = .message raw rest) :
    rest.size < s.size :=
  size_headLoop h

/-! ## Requests -/

/-- The head of a request. -/
structure RequestHead where
  /-- The head as it came. -/
  raw : List UInt8
  parts : Syntax.RequestParts
  framing : Framing
deriving DecidableEq, Repr

namespace RequestHead

/-- The head of a request in its bytes. -/
def ofBytes (raw : List UInt8) : Except Fault RequestHead :=
  match Syntax.request raw with
  | .ok (parts, _) => (Framing.ofRequest parts.headers).map fun framing => { raw, parts, framing }
  | .error .incomplete => .error (.protocol "incomplete request head")
  | .error fault => .error (.protocol ("malformed request head: " ++ fault.message))

/-- Reads the head of the next request. -/
def read (max : Nat) (s : Source) : Reading RequestHead :=
  (readHead max s).andThen ofBytes

theorem size_read {max : Nat} {s rest : Source} {head : RequestHead} (h : read max s = .message head rest) :
    rest.size < s.size := by
  obtain ⟨_, hr⟩ := Reading.source_of_andThen h
  exact size_readHead hr

/-- The client wants the connection to end after this request. -/
def wantsClose (h : RequestHead) : Bool :=
  Http.wantsClose h.parts.minor h.parts.headers

end RequestHead

/-! ## Responses -/

/-- The head of a response. -/
structure ResponseHead where
  /-- The head as it came. -/
  raw : List UInt8
  parts : Syntax.ResponseParts
  framing : Framing
deriving DecidableEq, Repr

namespace ResponseHead

/-- The head of a response, to a request with this method, in its bytes. -/
def ofBytes (method : String) (raw : List UInt8) : Except Fault ResponseHead :=
  match Syntax.response raw with
  | .ok (parts, _) =>
    (Framing.ofResponse method parts.status parts.headers).map fun framing => { raw, parts, framing }
  | .error .incomplete => .error (.protocol "incomplete response head")
  | .error fault => .error (.protocol ("malformed response head: " ++ fault.message))

/-- Reads the head of the next response, to a request with this method.  A stream that ends before it is a fault. -/
def read (max : Nat) (method : String) (s : Source) : Reading ResponseHead :=
  match (readHead max s).andThen (ofBytes method) with
  | .closed => .refused (.backendUnavailable "upstream closed without responding")
  | r => r

theorem size_read {max : Nat} {method : String} {s rest : Source} {head : ResponseHead}
    (h : read max method s = .message head rest) : rest.size < s.size := by
  unfold read at h
  split at h
  · cases h
  · obtain ⟨_, hr⟩ := Reading.source_of_andThen h
    exact size_readHead hr

/-- The connection ends after this response. -/
def wantsClose (h : ResponseHead) : Bool :=
  h.framing == .untilClose || Http.wantsClose h.parts.minor h.parts.headers

/-- The final response is still to come. -/
def isInterim (h : ResponseHead) : Bool :=
  100 ≤ h.parts.status && h.parts.status < 200 && h.parts.status != 101

end ResponseHead
end Http
end SearchTelemetry
