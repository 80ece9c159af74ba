import MeshClient.Lib.Trace

namespace MeshClient.Flasher

open Run Trace

def KISS_FEND : UInt8 := 0xc0

def KISS_FESC : UInt8 := 0xdb

def KISS_TFEND : UInt8 := 0xdc

def KISS_TFESC : UInt8 := 0xdd

def decodeKissBytes : List UInt8 → List UInt8 → Bool → Option (List UInt8)
  | data, [], escaping => if escaping then none else some data
  | data, byte :: frame, true =>
      if byte = KISS_TFEND then decodeKissBytes (data ++ [KISS_FEND]) frame false
      else if byte = KISS_TFESC then decodeKissBytes (data ++ [KISS_FESC]) frame false
      else none
  | data, byte :: frame, false =>
      if byte = KISS_FESC then decodeKissBytes data frame true
      else decodeKissBytes (data ++ [byte]) frame false

def decodeKissFrame (frame : List UInt8) : Option (List UInt8) := decodeKissBytes [] frame false

def escapeKissByte (byte : UInt8) : List UInt8 :=
  if byte = KISS_FEND then [KISS_FESC, KISS_TFEND]
  else if byte = KISS_FESC then [KISS_FESC, KISS_TFESC]
  else [byte]

def createKissFrame (data : List UInt8) : List UInt8 := KISS_FEND :: data.flatMap escapeKissByte ++ [KISS_FEND]

structure Reader where
  buffer : List UInt8 := []
  inFrame : Bool := false
deriving DecidableEq, Repr

inductive Mark where
  | onCommandReceived (data : List UInt8)
  | invalidFrame
deriving DecidableEq, Repr

namespace Reader

-- One byte of the read loop.
def step (reader : Reader) (byte : UInt8) : Reader :=
  if byte = KISS_FEND then
    { buffer := if reader.inFrame then [] else reader.buffer, inFrame := !reader.inFrame }
  else if reader.inFrame then { reader with buffer := reader.buffer ++ [byte] }
  else reader

-- An empty frame decodes to an empty array, which is truthy.
def closed (buffer : List UInt8) : Mark :=
  match decodeKissFrame buffer with
  | some data => .onCommandReceived data
  | none => .invalidFrame

def marks (reader : Reader) (byte : UInt8) : List Mark :=
  if byte = KISS_FEND ∧ reader.inFrame then [closed reader.buffer] else []

-- The loop keeps its buffer and flag between the chunks that are read.
def readLoop : Reader → List (List UInt8) → List Mark
  | _, [] => []
  | reader, value :: rest => trace step marks reader value ++ readLoop (run step reader value) rest

def received : Mark → Option (List UInt8)
  | .onCommandReceived data => some data
  | .invalidFrame => none

-- What the read loop hands to the command dispatcher.
def dispatched (chunks : List (List UInt8)) : List (List UInt8) := (readLoop {} chunks).filterMap received

theorem readLoop_eq (reader : Reader) (chunks : List (List UInt8)) :
    readLoop reader chunks = trace step marks reader chunks.flatten := by
  induction chunks generalizing reader with
  | nil => rfl
  | cons value rest ih => rw [readLoop, ih, List.flatten_cons, trace_append]

-- Escaping leaves no delimiter, and decoding undoes it.
theorem not_mem_escape (data : List UInt8) : KISS_FEND ∉ data.flatMap escapeKissByte := by
  rw [List.mem_flatMap]
  rintro ⟨byte, -, hmem⟩
  unfold escapeKissByte at hmem
  split_ifs at hmem with hfend hfesc
  · revert hmem
    decide
  · revert hmem
    decide
  · exact hfend (List.mem_singleton.mp hmem).symm

theorem decode_escape_byte (byte : UInt8) (data rest : List UInt8) :
    decodeKissBytes data (escapeKissByte byte ++ rest) false = decodeKissBytes (data ++ [byte]) rest false := by
  unfold escapeKissByte
  split_ifs with hfend hfesc
  · subst hfend
    rfl
  · subst hfesc
    rfl
  · rw [List.singleton_append, decodeKissBytes, if_neg hfesc]

theorem decode_escape (data acc : List UInt8) :
    decodeKissBytes acc (data.flatMap escapeKissByte) false = some (acc ++ data) := by
  induction data generalizing acc with
  | nil => simp [decodeKissBytes]
  | cons byte data ih => rw [List.flatMap_cons, decode_escape_byte, ih, List.append_assoc, List.singleton_append]

theorem decodeKissFrame_escape (data : List UInt8) : decodeKissFrame (data.flatMap escapeKissByte) = some data :=
  decode_escape data []

variable {reader : Reader} {bytes : List UInt8}

-- Between two delimiters the loop either collects or skips.
theorem run_of_not_mem (h : KISS_FEND ∉ bytes) :
    run step reader bytes = { reader with buffer := if reader.inFrame then reader.buffer ++ bytes else reader.buffer } ∧
      trace step marks reader bytes = [] := by
  induction bytes generalizing reader with
  | nil =>
      obtain ⟨buffer, inFrame⟩ := reader
      cases inFrame <;> simp [trace]
  | cons byte rest ih =>
      rw [List.mem_cons, not_or] at h
      obtain ⟨hrun, htrace⟩ := @ih (reader.step byte) h.2
      have hbyte := Ne.symm h.1
      rw [run_cons, hrun, trace, htrace]
      cases hframe : reader.inFrame <;> simp [step, marks, hbyte, hframe]

theorem step_fend (reader : Reader) :
    reader.step KISS_FEND = { buffer := if reader.inFrame then [] else reader.buffer, inFrame := !reader.inFrame } :=
  if_pos rfl

-- A frame that begins outside a frame is handed on.
theorem trace_frame (data : List UInt8) :
    run step {} (createKissFrame data) = {} ∧
      trace step marks {} (createKissFrame data) = [.onCommandReceived data] := by
  have hescape := @run_of_not_mem { buffer := [], inFrame := true } _ (not_mem_escape data)
  constructor
  · rw [createKissFrame, List.cons_append, run_cons, step_fend, run_append]
    simp [hescape.1, step_fend]
  · rw [createKissFrame, List.cons_append, trace, step_fend, trace_append]
    simp [hescape.1, hescape.2, trace, marks, closed, decodeKissFrame_escape]

-- A frame that begins inside a frame closes that one, is skipped, and opens another.
theorem trace_frame_inside (buffer data : List UInt8) :
    run step { buffer, inFrame := true } (createKissFrame data) = { buffer := [], inFrame := true } ∧
      trace step marks { buffer, inFrame := true } (createKissFrame data) = [closed buffer] := by
  have hescape := @run_of_not_mem {} _ (not_mem_escape data)
  constructor
  · rw [createKissFrame, List.cons_append, run_cons, step_fend, run_append]
    simp [hescape.1, step_fend]
  · rw [createKissFrame, List.cons_append, trace, step_fend, trace_append]
    simp [hescape.1, hescape.2, trace, marks]

theorem trace_frames (ds : List (List UInt8)) :
    trace step marks {} (ds.flatMap createKissFrame) = ds.map .onCommandReceived := by
  induction ds with
  | nil => rfl
  | cons data ds ih =>
      rw [List.flatMap_cons, trace_append, (trace_frame data).1, (trace_frame data).2, ih]
      rfl

theorem trace_frames_inside (buffer : List UInt8) (ds : List (List UInt8)) :
    trace step marks { buffer, inFrame := true } (ds.flatMap createKissFrame) =
      (if ds = [] then [] else [closed buffer]) ++ List.replicate (ds.length - 1) (.onCommandReceived []) := by
  induction ds generalizing buffer with
  | nil => rfl
  | cons data ds ih =>
      rw [List.flatMap_cons, trace_append, (trace_frame_inside buffer data).1, (trace_frame_inside buffer data).2, ih]
      cases ds with
      | nil => rfl
      | cons next ds => simp [List.replicate_succ, closed, decodeKissFrame, decodeKissBytes]

-- Outside a frame the buffer is empty.
def Tidy (reader : Reader) : Prop := reader.inFrame = false → reader.buffer = []

theorem tidy_step (h : Tidy reader) (byte : UInt8) : Tidy (reader.step byte) := by
  unfold Tidy step
  intro hframe
  split_ifs at hframe ⊢ with hfend hin
  · rfl
  · simp_all
  · simp_all
  · exact h hframe

theorem inFrame_run (reader : Reader) (bytes : List UInt8) :
    (run step reader bytes).inFrame = (reader.inFrame ^^ decide (bytes.count KISS_FEND % 2 = 1)) := by
  induction bytes generalizing reader with
  | nil => simp
  | cons byte rest ih =>
      rw [run_cons, ih, List.count_cons]
      by_cases hfend : byte = KISS_FEND
      · subst hfend
        rw [step_fend]
        rcases Nat.mod_two_eq_zero_or_one (rest.count KISS_FEND) with h | h <;>
          cases reader.inFrame <;> simp [Nat.add_mod, h]
      · cases hframe : reader.inFrame <;> simp [step, hfend, hframe]

-- The frames after the noise arrive, all of them where there is none, else at least from the
-- second on.
def Resynchronizes (noise : List UInt8) (ds chunks : List (List UInt8)) : Prop :=
  (noise = [] → dispatched chunks = ds) ∧ ds.tail <:+ dispatched chunks

theorem filterMap_received (ds : List (List UInt8)) : (ds.map Mark.onCommandReceived).filterMap received = ds := by
  rw [List.filterMap_map]
  exact List.filterMap_some

-- Noise is overcome exactly when it holds an even number of delimiters.
theorem resynchronizes_iff (noise : List UInt8) (ds chunks : List (List UInt8)) (hne : ∀ data ∈ ds, data ≠ [])
    (hchunks : chunks.flatten = noise ++ ds.flatMap createKissFrame) :
    Resynchronizes noise ds chunks ↔ noise.count KISS_FEND % 2 = 0 ∨ ds.length ≤ 1 := by
  have htidy : Tidy (run step {} noise) := 
    @invariant_run _ _ step Tidy (fun _ byte h => tidy_step h byte) {} (fun _ => rfl) noise
  have hframe := inFrame_run {} noise
  unfold Resynchronizes dispatched
  rw [readLoop_eq, hchunks, trace_append, List.filterMap_append]
  generalize hreader : run step {} noise = reader at htidy hframe
  obtain ⟨buffer, inFrame⟩ := reader
  rcases Nat.mod_two_eq_zero_or_one (noise.count KISS_FEND) with heven | hodd
  · obtain rfl : inFrame = false := by simpa [heven] using hframe
    obtain rfl : buffer = [] := htidy rfl
    rw [trace_frames, filterMap_received]
    refine iff_of_true ⟨?_, ?_⟩ (.inl heven)
    · rintro rfl
      rfl
    · exact (List.tail_suffix ds).trans (List.suffix_append _ ds)
  · obtain rfl : inFrame = true := by simpa [hodd] using hframe
    rw [trace_frames_inside]
    rcases ds with _ | ⟨first, _ | ⟨second, ds⟩⟩
    · refine iff_of_true ⟨?_, List.nil_suffix⟩ (.inr (by simp))
      rintro rfl
      simp at hodd
    · refine iff_of_true ⟨?_, List.nil_suffix⟩ (.inr (by simp))
      rintro rfl
      simp at hodd
    · apply iff_of_false
      · rintro ⟨-, hsuffix⟩
        -- what is read after the noise ends in an empty frame
        obtain ⟨front, hfront⟩ := hsuffix
        have hlast := congrArg List.getLast? hfront
        rw [List.length_cons, List.length_cons, Nat.add_sub_cancel, List.replicate_succ', List.filterMap_append,
          List.filterMap_append, List.tail_cons, List.getLast?_append, List.getLast?_append] at hlast
        have hempty : (second :: ds).getLast (by simp) = [] := by simpa [received, List.getLast?_eq_some_getLast] using hlast
        exact hne _ (List.mem_cons_of_mem _ (List.getLast_mem _)) hempty
      · simp [hodd]

-- A line of the boot console with two delimiters in it, and frames cut across the chunks.
def bootNoise : List UInt8 := [0x52, KISS_FEND, 0x0D, KISS_FEND, 0x0A]

theorem bootNoise_is_overcome :
    Resynchronizes bootNoise [[0x08, 0x46], [KISS_FEND, KISS_FESC]]
      [bootNoise ++ [KISS_FEND, 0x08], [0x46, KISS_FEND, KISS_FEND, KISS_FESC],
        [KISS_TFEND, KISS_FESC, KISS_TFESC, KISS_FEND]] :=
  (resynchronizes_iff bootNoise _ _ (by decide) (by decide)).mpr (by decide)

-- Half a frame, read from its middle on, and the frames after it.
def truncated : List UInt8 := [0x51, KISS_FEND]

theorem truncated_frame_loses_all : ¬ Resynchronizes truncated [[0x08, 0x46], [0x50, 1, 52], [0x48, 0x80]]
    [truncated ++ createKissFrame [0x08, 0x46], createKissFrame [0x50, 1, 52] ++ createKissFrame [0x48, 0x80]] := by
  unfold Resynchronizes
  decide

end Reader

end MeshClient.Flasher
