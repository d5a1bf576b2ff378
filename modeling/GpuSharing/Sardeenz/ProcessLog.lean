import Mathlib.Data.List.DropRight
import GpuSharing.Lib.Number
import GpuSharing.Lib.TrimmedLines
import GpuSharing.Lib.Utf8Stream

namespace GpuSharing.Sardeenz.ProcessLog

open TrimmedLines Utf8Stream

inductive Stream
  | stdout
  | stderr
  deriving DecidableEq, Repr

structure LogEntry where
  stream : Stream
  content : List Char
  deriving DecidableEq, Repr

/-- What `trim` takes away: the white space and the line ends of JavaScript. -/
def isSpace (c : Char) : Bool :=
  c ∈ ['\t', '\n', '\x0B', '\x0C', '\r', ' ', '\u00A0', '\u1680', '\u2028', '\u2029', '\u202F',
    '\u205F', '\u3000', '\uFEFF'] || (0x2000 ≤ c.toNat && c.toNat ≤ 0x200A)

/-- The entries of one instance that are kept, and all that were captured. -/
structure LogBuffer (maxLines : Nat) where
  buffer : List LogEntry
  captured : List LogEntry
  bounded : buffer.length ≤ maxLines

namespace LogBuffer

variable {maxLines : Nat}

def entries (stream : Stream) (content : List Char) : List LogEntry :=
  ((content.splitOn '\n').filter fun line => trim isSpace line ≠ []).map (LogEntry.mk stream)

def append (log : LogBuffer maxLines) (stream : Stream) (content : List Char) :
    LogBuffer maxLines where
  buffer := (log.buffer ++ entries stream content).rtake maxLines
  captured := log.captured ++ entries stream content
  bounded := by
    rw [List.rtake, List.length_drop]
    omega

/-- The handler of `data`. -/
def onData (stream : Stream) (log : LogBuffer maxLines) (data : List UInt8) : LogBuffer maxLines :=
  log.append stream (trim isSpace (text data))

end LogBuffer

/-- A part of a regular expression: a text, or the characters of a class, at least so many of them
and as many as the rest can do without. -/
inductive Piece
  | text (s : String)
  | run (p : Char → Bool) (least : Nat) (grouped : Bool)

/-- What the group of a pattern matches at the beginning of a text. -/
def matchHere : List Piece → List Char → Option (List Char)
  | [], _ => some []
  | .text s :: pieces, cs =>
    if s.toList.isPrefixOf cs then matchHere pieces (cs.drop s.toList.length) else none
  | .run p least grouped :: pieces, cs =>
    ((List.range' least ((cs.takeWhile p).length + 1 - least)).reverse).findSome? fun n =>
      (matchHere pieces (cs.drop n)).map fun later => if grouped then cs.take n else later

/-- The group of the first match. -/
def search (pieces : List Piece) (cs : List Char) : Option (List Char) :=
  cs.tails.findSome? (matchHere pieces)

def decimal (c : Char) : Bool := c.isDigit || c = '.'

def modelLoading : List Piece :=
  [.text "Model loading took ", .run decimal 1 true, .text " GiB"]

def cudaGraphs : List Piece :=
  [.text "Graph capturing finished", .run (· ∉ ['\n', '\r', '\u2028', '\u2029']) 0 false,
    .text "took ", .run decimal 1 true, .text " GiB"]

def kvCacheAvailable : List Piece :=
  [.text "Available KV cache memory: ", .run decimal 1 true, .text " GiB"]

def gpuTotal : List Piece :=
  [.text "Free memory on device (", .run decimal 1 false, .text "/", .run decimal 1 true,
    .text " GiB)"]

def kvCacheTotalTokens : List Piece :=
  [.text "GPU KV cache size: ", .run (fun c => c.isDigit || c = ',') 1 true, .text " tokens"]

def maxModelLen : List Piece := [.text "Using max model len ", .run Char.isDigit 1 true]

def engineCore : List Piece :=
  [.text "EngineCore_DP", .run Char.isDigit 1 false, .text " pid=", .run Char.isDigit 1 true]

def digitsValue (cs : List Char) : Nat :=
  cs.foldl (fun n c => 10 * n + (c.toNat - '0'.toNat)) 0

/-- Of digits and other characters, in base 10. -/
def parseInt (cs : List Char) : Number :=
  let digits := cs.takeWhile Char.isDigit
  if digits = [] then .nan else .finite (digitsValue digits)

/-- Of digits and points. -/
def parseFloat (cs : List Char) : Number :=
  let whole := cs.takeWhile Char.isDigit
  let fraction := match cs.dropWhile Char.isDigit with
    | '.' :: rest => rest.takeWhile Char.isDigit
    | _ => []
  if whole = [] ∧ fraction = [] then .nan
  else .finite (digitsValue whole + digitsValue fraction / 10 ^ fraction.length)

/-- A figure that was found stays, and else the line is searched. -/
def figure (found : Option Number) (pieces : List Piece) (parse : List Char → Number)
    (content : List Char) : Option Number :=
  found.or ((search pieces content).map parse)

structure VllmMemoryInfo where
  modelWeightsGB : Option Number
  cudaGraphsGB : Option Number
  kvCacheAvailableGB : Option Number
  gpuTotalFromLogGB : Option Number
  deriving DecidableEq, Repr

namespace VllmMemoryInfo

def read (result : VllmMemoryInfo) (content : List Char) : VllmMemoryInfo where
  modelWeightsGB := figure result.modelWeightsGB modelLoading parseFloat content
  cudaGraphsGB := figure result.cudaGraphsGB cudaGraphs parseFloat content
  kvCacheAvailableGB := figure result.kvCacheAvailableGB kvCacheAvailable parseFloat content
  gpuTotalFromLogGB := figure result.gpuTotalFromLogGB gpuTotal parseFloat content

def foundAll (result : VllmMemoryInfo) : Bool :=
  result.modelWeightsGB.isSome && result.cudaGraphsGB.isSome && result.kvCacheAvailableGB.isSome &&
    result.gpuTotalFromLogGB.isSome

def readAll (result : VllmMemoryInfo) : List LogEntry → VllmMemoryInfo
  | [] => result
  | entry :: logs =>
    let result := result.read entry.content
    if result.foundAll then result else result.readAll logs

end VllmMemoryInfo

def extractVllmMemoryInfo (logs : List LogEntry) : Option VllmMemoryInfo :=
  let nothing : VllmMemoryInfo := ⟨none, none, none, none⟩
  let result := nothing.readAll logs
  if result = nothing then none else some result

structure ModelMemoryMetrics where
  totalGpuMemoryGiB : Number
  weightsMemoryGiB : Number
  cudaGraphMemoryGiB : Number
  overheadMemoryGiB : Number
  kvCacheAvailableGiB : Number
  kvCachePerRequestMiB : Number
  maxModelLen : Number
  deriving DecidableEq, Repr

def roundTo (scale : Number) (x : Number) : Number := (x.mul scale).round.div scale

def firstFigure (pieces : List Piece) (parse : List Char → Number) (logs : List LogEntry) :
    Option Number :=
  logs.foldl (fun found entry => figure found pieces parse entry.content) none

def parseMemoryMetrics (logs : List LogEntry) (fallbackMaxTokens : Number)
    (actualGpuMemoryGiB : Option Number) : Option ModelMemoryMetrics := do
  let weightsMemoryGiB ← firstFigure modelLoading parseFloat logs
  let cudaGraphMemoryGiB ← firstFigure cudaGraphs parseFloat logs
  let kvCacheAvailableGiB ← firstFigure kvCacheAvailable parseFloat logs
  let finalMaxModelLen := (firstFigure maxModelLen parseInt logs).getD fallbackMaxTokens
  let kvCachePerRequestMiB := match firstFigure kvCacheTotalTokens
      (fun cs => parseInt (cs.filter (· ≠ ','))) logs with
    | some tokens =>
      if tokens.IsPositive then
        ((kvCacheAvailableGiB.mul (.finite 1024)).div tokens).mul finalMaxModelLen
      else .finite 0
    | none => .finite 0
  let sum := weightsMemoryGiB.add cudaGraphMemoryGiB
  let overheadMemoryGiB := match actualGpuMemoryGiB with
    | some actual => ((actual.sub weightsMemoryGiB).sub cudaGraphMemoryGiB).max (.finite 0)
    | none => .finite 0
  return {
    totalGpuMemoryGiB := roundTo (.finite 1000) (actualGpuMemoryGiB.getD sum)
    weightsMemoryGiB := weightsMemoryGiB
    cudaGraphMemoryGiB := cudaGraphMemoryGiB
    overheadMemoryGiB := roundTo (.finite 1000) overheadMemoryGiB
    kvCacheAvailableGiB := kvCacheAvailableGiB
    kvCachePerRequestMiB := roundTo (.finite 100) kvCachePerRequestMiB
    maxModelLen := finalMaxModelLen }

def extractEngineCorePid (logs : List LogEntry) : Option Number :=
  logs.findSome? fun entry =>
    ((search engineCore entry.content).map parseInt).filter (· ≠ .nan)

namespace LogBuffer

variable {maxLines : Nat} {stream : Stream} {log log' : LogBuffer maxLines}
  {chunks : List (List UInt8)}

/-- Two logs with the same lines and all that is read from them. -/
structure Same (log log' : LogBuffer maxLines) : Prop where
  captured : log.captured = log'.captured
  buffer : log.buffer = log'.buffer
  memoryInfo : extractVllmMemoryInfo log.buffer = extractVllmMemoryInfo log'.buffer
  metrics : parseMemoryMetrics log.buffer = parseMemoryMetrics log'.buffer
  enginePid : extractEngineCorePid log.buffer = extractEngineCorePid log'.buffer

/-- No chunk ends within a character, and the white space between the text of a chunk and the next
text begins and ends with a newline. -/
structure BetweenLines (chunks : List (List UInt8)) : Prop where
  characters : Cuts (fun bytes rest => ¬ SplitsCharacter bytes rest) chunks
  lines : Cuts (Fits isSpace '\n') (chunks.map text)

/-- The lines that a chunk is captured as. -/
def chunkLines (data : List UInt8) : List (List Char) := lines isSpace '\n' (text data)

theorem onData_eq (stream : Stream) (log : LogBuffer maxLines) (data : List UInt8) :
    (log.onData stream data).captured = log.captured ++ (chunkLines data).map (LogEntry.mk stream) ∧
      (log.onData stream data).buffer =
        (log.buffer ++ (chunkLines data).map (LogEntry.mk stream)).rtake maxLines := ⟨rfl, rfl⟩

theorem rtake_append_rtake (l l' : List LogEntry) (n : Nat) :
    (l.rtake n ++ l').rtake n = (l ++ l').rtake n := by
  rw [List.rtake, List.rtake, List.rtake, List.length_append, List.length_drop, List.length_append,
    List.drop_append, List.drop_append, List.drop_drop, List.length_drop]
  congr 2 <;> omega

theorem rtake_buffer (log : LogBuffer maxLines) : log.buffer.rtake maxLines = log.buffer := by
  rw [List.rtake, Nat.sub_eq_zero_of_le log.bounded, List.drop_zero]

/-- The log after all chunks have been handled. -/
theorem foldl_onData (stream : Stream) (log : LogBuffer maxLines) (chunks : List (List UInt8)) :
    (chunks.foldl (onData stream) log).captured =
        log.captured ++ (chunks.flatMap chunkLines).map (LogEntry.mk stream) ∧
      (chunks.foldl (onData stream) log).buffer =
        (log.buffer ++ (chunks.flatMap chunkLines).map (LogEntry.mk stream)).rtake maxLines := by
  induction chunks generalizing log with
  | nil => simp [rtake_buffer]
  | cons data chunks ih =>
    obtain ⟨hcaptured, hbuffer⟩ := ih (log.onData stream data)
    obtain ⟨hcaptured', hbuffer'⟩ := onData_eq stream log data
    rw [List.foldl_cons, hcaptured, hbuffer, hcaptured', hbuffer', rtake_append_rtake,
      List.flatMap_cons, List.map_append, List.append_assoc, List.append_assoc]
    exact ⟨rfl, rfl⟩

/-- How many characters other than white space there are in bytes. -/
def inked (data : List UInt8) : Int := (text data).countP fun c => !isSpace c

theorem countP_chunkLines (data : List UInt8) :
    ((chunkLines data).flatten.countP fun c => !isSpace c : Nat) = inked data := by
  have hfilter : (lines isSpace '\n' (text data)).flatten.filter (fun c => !isSpace c) = _ :=
    filter_lines (fun c hc => by simp [hc]) (by decide) (text data)
  rw [chunkLines, inked, List.countP_eq_length_filter, List.countP_eq_length_filter, hfilter]

theorem countP_flatMap_chunkLines (chunks : List (List UInt8)) :
    ((chunks.flatMap chunkLines).flatten.countP fun c => !isSpace c : Nat) =
      (chunks.map inked).sum := by
  induction chunks with
  | nil => rfl
  | cons data chunks ih =>
    rw [List.flatMap_cons, List.flatten_append, List.countP_append, List.map_cons, List.sum_cons,
      ← ih, ← countP_chunkLines]
    rfl

/-- Chunks with the lines of the whole split no character. -/
theorem cuts_of_chunkLines (heq : chunkLines chunks.flatten = chunks.flatMap chunkLines) :
    Cuts (fun bytes rest => ¬ SplitsCharacter bytes rest) chunks := by
  have hcount := fun bytes rest => text_append_count (p := fun c => !isSpace c) (by decide) bytes rest
  refine cuts_of_measure_eq (w := inked) (Int.le_refl 0) (fun bytes rest => ?_)
    (fun bytes rest hsame hsplit => ?_) ?_
  · have hle := (hcount bytes rest).1
    simp only [inked]
    omega
  · have hlt := (hcount bytes rest).2 hsplit
    simp only [inked] at hsame
    omega
  · rw [← countP_flatMap_chunkLines, ← heq, countP_chunkLines]

/-- The chunks have the lines of the whole exactly when they end between lines. -/
theorem chunkLines_flatten_iff (chunks : List (List UInt8)) :
    chunkLines chunks.flatten = chunks.flatMap chunkLines ↔ BetweenLines chunks := by
  have hnil : text [] = [] := rfl
  have htext : Cuts (fun bytes rest => ¬ SplitsCharacter bytes rest) chunks →
      text chunks.flatten = (chunks.map text).flatten := by
    intro hcuts
    rw [hcuts.flatMap hnil fun _ _ => text_append, List.flatMap_def]
  have hlines : chunks.flatMap chunkLines = (chunks.map text).flatMap (lines isSpace '\n') := by
    rw [List.flatMap_map]
    rfl
  constructor
  · intro heq
    have hcuts := cuts_of_chunkLines heq
    refine ⟨hcuts, (lines_flatten_iff (by decide) _).mp ?_⟩
    rw [← htext hcuts, ← hlines]
    exact heq
  · intro h
    rw [chunkLines, htext h.characters, hlines]
    exact (lines_flatten_iff (by decide) _).mpr h.lines

/-- A stream that is handled in chunks is captured as if it had come at once, with all that is read
from its lines, exactly when the chunks end between lines. -/
theorem captured_iff (stream : Stream) (log : LogBuffer maxLines) (chunks : List (List UInt8)) :
    Same (chunks.foldl (onData stream) log) (log.onData stream chunks.flatten) ↔
      BetweenLines chunks := by
  obtain ⟨hcaptured, hbuffer⟩ := foldl_onData stream log chunks
  obtain ⟨hcaptured', hbuffer'⟩ := onData_eq stream log chunks.flatten
  rw [← chunkLines_flatten_iff]
  constructor
  · intro h
    have heq := h.captured
    rw [hcaptured, hcaptured', List.append_cancel_left_eq] at heq
    exact (List.map_injective_iff.mpr (fun x y hxy => congrArg LogEntry.content hxy) heq).symm
  · intro heq
    rw [← heq, ← hbuffer'] at hbuffer
    rw [← heq, ← hcaptured'] at hcaptured
    exact ⟨hcaptured, hbuffer, congrArg _ hbuffer, congrArg _ hbuffer, congrArg _ hbuffer⟩

/-- A log with the default limit in which nothing was captured. -/
def empty : LogBuffer 500 := ⟨[], [], Nat.zero_le 500⟩

/-- A line that comes in three chunks, and a character that comes in two. -/
def splitLine : List (List UInt8) :=
  ["(EngineCore_DP0 pid=76", "355) Model loading took 1", "5.25 GiB and 0.76 seconds\n"].map
    fun chunk => encode chunk.toList

def splitCharacter : List (List UInt8) := [[0xC3], [0xA9]]

theorem split_line_misread :
    (¬ Same (splitLine.foldl (onData .stdout) empty) (empty.onData .stdout splitLine.flatten) ∧
      extractEngineCorePid (splitLine.foldl (onData .stdout) empty).buffer = some (.finite 76) ∧
      extractEngineCorePid (empty.onData .stdout splitLine.flatten).buffer = some (.finite 76355) ∧
      extractVllmMemoryInfo (splitLine.foldl (onData .stdout) empty).buffer = none ∧
      extractVllmMemoryInfo (empty.onData .stdout splitLine.flatten).buffer =
        some ⟨some (.finite (61 / 4)), none, none, none⟩) ∧
    ¬ Same (splitCharacter.foldl (onData .stdout) empty)
      (empty.onData .stdout splitCharacter.flatten) := by
  have hpid : extractEngineCorePid (splitLine.foldl (onData .stdout) empty).buffer =
      some (.finite 76) := by decide +kernel
  have hpid' : extractEngineCorePid (empty.onData .stdout splitLine.flatten).buffer =
      some (.finite 76355) := by decide +kernel
  refine ⟨⟨fun hsame => ?_, hpid, hpid', by decide +kernel, by decide +kernel⟩, fun hsame => ?_⟩
  · have heq := hsame.enginePid
    rw [hpid, hpid'] at heq
    exact absurd heq (by decide +kernel)
  · exact absurd hsame.captured (by decide +kernel)

end LogBuffer

end GpuSharing.Sardeenz.ProcessLog
