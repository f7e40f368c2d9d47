import SearchTelemetry.Http.Body
/-!
# Http.Content — what a body holds

A body that has come whole is read for what it holds.  Only a chunked body holds less than came: the lines between the
chunks are not part of it.
-/
namespace SearchTelemetry
namespace Http

/-- What the chunks of a chunked body hold.  A line that gives no size ends it. -/
def chunkContent (bs : List UInt8) : List UInt8 :=
  if _ : bs = [] then []
  else
    let line := bs.takeWhile (· ≠ 0x0A)
    let rest := bs.drop (line.length + 1)
    match Passage.chunkSize? line with
    | none | some 0 => []
    | some n => rest.take n ++ chunkContent (rest.drop (n + 2))
termination_by bs.length
decreasing_by
  have := List.length_pos_iff.2 ‹¬bs = []›
  simp only [List.length_drop]
  omega

/-- What a body holds that has come whole. -/
def content : Framing → List UInt8 → List UInt8
  | .chunked, bs => chunkContent bs
  | _, bs => bs

/-- The body at the front of a stream. -/
inductive Body where
  /-- It has come whole: what it holds, and the stream behind it. -/
  | whole (content : List UInt8) (rest : Source)
  /-- More of it is waited for. -/
  | waiting
  /-- It will not become whole. -/
  | broken (fault : ReadFault)

namespace Body

/-- Reads the body at the front of a stream. -/
def read (framing : Framing) (s : Source) : Body :=
  match Passage.relay none ⟨s, .ofRoom none, .ofLimit 0⟩ framing with
  | .ok p => whole (Http.content framing p.sink.written) p.source
  | .error ⟨.read (.quiet _), _⟩ => waiting
  | .error ⟨.read fault, _⟩ => broken fault
  | .error ⟨.write, _⟩ => waiting

/-- A body never gives bytes back to the stream. -/
theorem size_read {framing : Framing} {s rest : Source} {content : List UInt8}
    (h : read framing s = whole content rest) : rest.size ≤ s.size := by
  unfold read at h
  split at h
  · rename_i hr
    cases h
    exact Passage.size_relay hr
  all_goals cases h

end Body
end Http
end SearchTelemetry
