import ServerLib.Web.RequestLine

/-!
# Requests as they are written and parsed

A request line whose parts do not have the characters in them that end them is cut into the parts
that it was made of, and a block of fields is read as it was written.
-/
namespace ServerLib.Web

open Network (Bytes)

/-- A path with its query string, if that is not empty. -/
def target (path query : Bytes) : Bytes := if query = [] then path else path ++ 63 :: query

/-- A request line with any target. -/
def targetLine (method target : Bytes) : Bytes :=
  method ++ 32 :: (target ++ 32 :: ascii "HTTP/1.1")

def requestLine (method path query : Bytes) : Bytes := targetLine method (target path query)

/-- The parts of a request line do not have the characters in them that end them. -/
structure PlainRequestLine (method path query : Bytes) : Prop where
  method_plain : 32 ∉ method ∧ Plain method
  path_plain : 32 ∉ path ∧ 63 ∉ path ∧ Plain path
  query_plain : 32 ∉ query ∧ 63 ∉ query ∧ Plain query

instance PlainRequestLine.decidable (method path query : Bytes) :
    Decidable (PlainRequestLine method path query) :=
  decidable_of_iff
    ((32 ∉ method ∧ Plain method) ∧ (32 ∉ path ∧ 63 ∉ path ∧ Plain path) ∧
      (32 ∉ query ∧ 63 ∉ query ∧ Plain query))
    ⟨fun ⟨a, b, c⟩ => ⟨a, b, c⟩, fun ⟨a, b, c⟩ => ⟨a, b, c⟩⟩

variable {method path query : Bytes}

theorem target_plain (plain : PlainRequestLine method path query) :
    32 ∉ target path query ∧ Plain (target path query) := by
  unfold target
  split
  · exact ⟨plain.path_plain.1, plain.path_plain.2.2⟩
  · have separated : 32 ∉ 63 :: query ∧ Plain (63 :: query) := by
      refine ⟨?_, ?_, ?_⟩ <;> rw [List.mem_cons, not_or]
      · exact ⟨by decide, plain.query_plain.1⟩
      · exact ⟨by decide, plain.query_plain.2.2.1⟩
      · exact ⟨by decide, plain.query_plain.2.2.2⟩
    refine ⟨?_, plain.path_plain.2.2.append separated.2⟩
    rw [List.mem_append, not_or]
    exact ⟨plain.path_plain.1, separated.1⟩

theorem targetLine_plain {target : Bytes} (method_plain : Plain method)
    (target_plain : Plain target) :
    targetLine method target ≠ [] ∧ Plain (targetLine method target) := by
  refine ⟨by simp [targetLine], method_plain.append ?_⟩
  have spaced : ∀ s : Bytes, Plain s → Plain (32 :: s) := by
    intro s clean
    constructor <;> rw [List.mem_cons, not_or]
    · exact ⟨by decide, clean.1⟩
    · exact ⟨by decide, clean.2⟩
  exact spaced _ (target_plain.append (spaced _ (by decide)))

/-! ### The message -/

/-- The target is cut into the parts that it was made of. -/
theorem scannedTarget_target (plain : PlainRequestLine method path query) (old : Bytes) :
    scannedTarget (target path query) old = (path, if query = [] then old else query) := by
  unfold scannedTarget target
  split
  · rw [Cut.last_eq_none_iff.mpr plain.path_plain.2.1]
    rfl
  · rw [Cut.last_append_cons path plain.query_plain.2.1]
    rfl

/-- A request is parsed into its method, the two parts of its target and its fields, and the
stream is left behind its blank line. -/
theorem parseRequest_targetLine {target : Bytes} (method_plain : 32 ∉ method ∧ Plain method)
    (target_plain : 32 ∉ target ∧ Plain target) (fields : List SpacedField) {stream : StreamBuf}
    (good : stream.good) {rest : Bytes}
    (begins : stream.data =
      headerBlock (targetLine method target :: fields.map SpacedField.line) ++ rest)
    (message : RequestMessage) :
    parseRequest stream message = .ok (true,
      { scannedMessage method target message with
        httpVersion := ascii "1.1", header := fields.map SpacedField.field },
      stream.consume
        (headerBlock (targetLine method target :: fields.map SpacedField.line)).length) := by
  obtain ⟨behind, line, header⟩ :=
    parseHeader_behind_line (targetLine_plain method_plain.2 target_plain.2).2.2 fields good begins
  have shape : IsRequestLine (targetLine method target ++ [13]) method target
      (ascii "1.1" ++ [13]) := by
    refine ⟨?_, method_plain.1, target_plain.1⟩
    simp [targetLine, show ascii "HTTP/1.1" = ascii "HTTP/" ++ ascii "1.1" from rfl]
  rw [parseRequest_accepted line shape, header]
  rfl

/-- If the target has been made of a path and a query string, these are the parts. -/
theorem parseRequest_written (plain : PlainRequestLine method path query)
    (fields : List SpacedField) {stream : StreamBuf} (good : stream.good) {rest : Bytes}
    (begins : stream.data =
      headerBlock (requestLine method path query :: fields.map SpacedField.line) ++ rest)
    (message : RequestMessage) :
    parseRequest stream message = .ok (true,
      { method, path, queryString := if query = [] then message.queryString else query,
        httpVersion := ascii "1.1", header := fields.map SpacedField.field },
      stream.consume
        (headerBlock (requestLine method path query :: fields.map SpacedField.line)).length) := by
  have cut := scannedTarget_target plain message.queryString
  rw [parseRequest_targetLine plain.method_plain (target_plain plain) fields good begins,
    scannedMessage, cut]
  rfl

end ServerLib.Web
