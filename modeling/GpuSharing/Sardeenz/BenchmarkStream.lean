import GpuSharing.Lib.CutLines
import GpuSharing.Lib.Json
import GpuSharing.Sardeenz.StreamRelay

namespace GpuSharing.Sardeenz.BenchmarkStream

open CutLines Transducer
open StreamRelay (TextDecoder decodeByte)

/-- `promptTokens` and `completionTokens`, `none` where they are undefined. -/
structure Usage where
  promptTokens : Option Json
  completionTokens : Option Json

def Usage.undefined : Usage := ⟨none, none⟩

/-- What `executeStreamingRequest` returns, besides times. -/
structure RequestResult where
  usage : Usage
  success : Bool

/-- `parsed.choices?.[0]?.delta?.content`. -/
def deltaContent (parsed : Json) : Option Json := do
  let choices ← parsed.field "choices"
  let choice ← choices.first
  let delta ← choice.field "delta"
  delta.field "content"

/-- What a parsed message sets. Where the source throws, it catches the error and sets nothing: on
`null`, and on content that cannot be appended to a string. -/
def messageUsage (parsed : Json) : Option Usage :=
  if (deltaContent parsed).any fun delta => delta.truthy && !delta.hasText then none
  else do
    let usage ← parsed.field "usage"
    if usage.truthy then some ⟨usage.field "prompt_tokens", usage.field "completion_tokens"⟩
    else none

variable (parse : List Char → Option Json)

/-- The body of the loop, where `parse` is `JSON.parse` with `none` for an error. -/
def readLine (line : List Char) : Option Usage :=
  if "data: ".toList.isPrefixOf line then
    let data := line.drop 6
    if data = "[DONE]".toList then none else (parse data).bind messageUsage
  else none

/-- The loop over the lines of a chunk. -/
def readChunk (s : TextDecoder × Usage) (value : List UInt8) : TextDecoder × Usage :=
  let decoded := feed decodeByte s.1 value
  let lines := decoded.2.splitOn '\n'
  (decoded.1, lines.foldl (fun usage line => (readLine parse line).getD usage) s.2)

/-- The loop over the chunks, up to the end of the stream. -/
def readStream (chunks : List (List UInt8)) : RequestResult where
  usage := (chunks.foldl (readChunk parse) (.new, .undefined)).2
  success := true

/-- What the decoder makes of each chunk. -/
def texts (decoder : TextDecoder) : List (List UInt8) → List (List Char)
  | [] => []
  | value :: chunks =>
    (feed decodeByte decoder value).2 :: texts (feed decodeByte decoder value).1 chunks

theorem flatten_texts (decoder : TextDecoder) (chunks : List (List UInt8)) :
    (texts decoder chunks).flatten = (feed decodeByte decoder chunks.flatten).2 := by
  induction chunks generalizing decoder with
  | nil => rfl
  | cons value chunks ih =>
    have hrest := ih (feed decodeByte decoder value).1
    simp [texts, feed_append, hrest]

variable {parse}

theorem foldl_readChunk (decoder : TextDecoder) (usage : Usage) (chunks : List (List UInt8)) :
    (chunks.foldl (readChunk parse) (decoder, usage)).2 =
      lastRead (readLine parse) usage ((texts decoder chunks).flatMap (·.splitOn '\n')) := by
  induction chunks generalizing decoder usage with
  | nil => rfl
  | cons value chunks ih =>
    rw [List.foldl_cons, texts, List.flatMap_cons, lastRead_append]
    exact ih _ _

theorem usage_readStream (chunks : List (List UInt8)) :
    (readStream parse chunks).usage = lastRead (readLine parse) .undefined
      (cutLines '\n' (texts .new chunks)).flatten := by
  rw [flatten_cutLines]
  exact foldl_readChunk .new .undefined chunks

theorem usage_unsplit (chunks : List (List UInt8)) :
    (readStream parse [chunks.flatten]).usage = lastRead (readLine parse) .undefined
      ((cutLines '\n' (texts .new chunks)).map List.flatten) := by
  have hwhole : texts .new [chunks.flatten] = [(texts .new chunks).flatten] := by
    rw [flatten_texts]
    rfl
  rw [usage_readStream, map_flatten_cutLines, hwhole, flatten_cutLines]
  simp

/-- The benchmark reads the same from the chunks as from the whole body exactly when the cuts
through its lines are harmless. -/
theorem readStream_split_iff (parse : List Char → Option Json) (chunks : List (List UInt8)) :
    readStream parse chunks = readStream parse [chunks.flatten] ↔
      Harmless (readLine parse) .undefined (cutLines '\n' (texts .new chunks)) := by
  rw [← lastRead_cut_iff, ← usage_readStream, ← usage_unsplit]
  constructor
  · intro h
    exact congrArg RequestResult.usage h
  · intro h
    change RequestResult.mk _ true = RequestResult.mk _ true
    exact congrArg (RequestResult.mk · true) h

/-- A chunk boundary at the end of a line does no harm. -/
theorem readStream_uncut (parse : List Char → Option Json) (chunks : List (List UInt8))
    (h : ∀ parts ∈ cutLines '\n' (texts .new chunks), Uncut parts) :
    readStream parse chunks = readStream parse [chunks.flatten] :=
  (readStream_split_iff parse chunks).mpr (harmless_of_uncut rfl h)

/-- `{"usage":{"prompt_tokens":5,"completion_tokens":7}}`. -/
def usageData : List Char :=
  "\x7b\"usage\":\x7b\"prompt_tokens\":5,\"completion_tokens\":7\x7d\x7d".toList

/-- `JSON.parse`, as far as it comes to this message and to texts that are not JSON. -/
def parseUsage (text : List Char) : Option Json :=
  if text = usageData then
    some (.object [("usage", .object [("prompt_tokens", .number (.finite 5)),
      ("completion_tokens", .number (.finite 7))])])
  else none

/-- The first chunk ends within the message. -/
def cutUsage : List (List UInt8) :=
  [Utf8Stream.encode ("data: ".toList ++ usageData.take 20),
    Utf8Stream.encode (usageData.drop 20 ++ "\n\ndata: [DONE]\n\n".toList)]

theorem cut_usage_lost :
    readStream parseUsage cutUsage ≠ readStream parseUsage [cutUsage.flatten] := by
  have hcut : (readStream parseUsage cutUsage).usage.completionTokens.isSome = false := by
    decide +kernel
  have hwhole :
      (readStream parseUsage [cutUsage.flatten]).usage.completionTokens.isSome = true := by
    decide +kernel
  intro heq
  rw [heq, hwhole] at hcut
  cases hcut

end GpuSharing.Sardeenz.BenchmarkStream
