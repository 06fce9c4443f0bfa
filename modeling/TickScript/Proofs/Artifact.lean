import TickScript.Artifact
import TickScript.Proofs.Text.Utf8

/-!
# Artifacts are read back

Every part of an artifact says how long it is before it begins, so a reader takes exactly the bytes of
its part. `Reads` says this of a reader: it takes a value from the front of whatever comes behind, and
if bytes are missing at the end, it finds out. Readers in a row inherit it by `Reads.bind`.
`artifact_reads_back` is what comes of it for compiled programs.
-/

namespace TickScript

namespace Artifact

/-- A reader takes a value from its bytes and leaves what is behind them. Of bytes that are cut short
it says how many are missing, and these are not more than were cut off. -/
structure Reads {α : Type} (reader : Reader α) (bytes : List UInt8) (value : α) : Prop where
  whole : ∀ rest, reader (bytes ++ rest) = .ok (value, rest)
  cut : ∀ part lost, bytes = part ++ lost → lost ≠ [] →
    ∃ missing, 0 < missing ∧ missing ≤ lost.length ∧ reader part = .error (.cut missing)

namespace Reads

variable {α β : Type} {first : Reader α} {bytes later : List UInt8} {value : α}

/-- A reader that needs no bytes. -/
theorem pure (value : α) : Reads (fun bytes => .ok (value, bytes)) [] value := by
  refine ⟨fun rest => rfl, fun part lost hsplit hlost => ?_⟩
  exact absurd (List.append_eq_nil_iff.1 hsplit.symm).2 hlost

/-- One reader after another. -/
theorem bind {next : α → Reader β} {result : β} (hfirst : Reads first bytes value)
    (hnext : Reads (next value) later result) :
    Reads (fun bytes => do
      let (value, rest) ← first bytes
      next value rest) (bytes ++ later) result := by
  constructor
  · intro rest
    rw [List.append_assoc, hfirst.whole]
    exact hnext.whole rest
  · intro part lost hsplit hlost
    -- The bytes are cut in the second part, or in the first one together with all of the second.
    rcases List.append_eq_append_iff.1 hsplit with ⟨part', rfl, hlater⟩ | ⟨lost', hbytes, rfl⟩
    · obtain ⟨missing, hpos, hle, hcut⟩ := hnext.cut part' lost hlater hlost
      refine ⟨missing, hpos, hle, ?_⟩
      rw [hfirst.whole]
      exact hcut
    · by_cases hnil : lost' = []
      · subst hnil
        obtain ⟨missing, hpos, hle, hcut⟩ := hnext.cut [] later rfl hlost
        refine ⟨missing, hpos, hle, ?_⟩
        have hwhole := hfirst.whole []
        rw [hbytes, List.append_nil, List.append_nil] at hwhole
        rw [hwhole]
        exact hcut
      · obtain ⟨missing, hpos, hle, hcut⟩ := hfirst.cut part lost' hbytes hnil
        refine ⟨missing, hpos, ?_, ?_⟩
        · rw [List.length_append]
          omega
        · rw [hcut]
          rfl

/-- The value is changed when it has been read. -/
theorem map (change : α → β) (h : Reads first bytes value) :
    Reads (fun bytes => do
      let (value, rest) ← first bytes
      return (change value, rest)) bytes (change value) := by
  have hpure : Reads (fun bytes => .ok (change value, bytes)) [] (change value) := pure _
  have hmap := @bind _ _ _ _ _ _ (fun value bytes => .ok (change value, bytes)) _ h hpure
  rw [List.append_nil] at hmap
  exact hmap

/-- The values of two readers in a row are put together. -/
theorem both {γ : Type} {second : Reader β} {result : β} (join : α → β → γ)
    (hfirst : Reads first bytes value) (hsecond : Reads second later result) :
    Reads (fun bytes => do
      let (value, rest) ← first bytes
      let (result, rest) ← second rest
      return (join value result, rest)) (bytes ++ later) (join value result) :=
  @bind _ _ _ _ _ _ (fun value rest => do
    let (result, rest) ← second rest
    return (join value result, rest)) _ hfirst (hsecond.map (join value))

/-- A reader that may look at all bytes before it begins. -/
theorem ahead {family : List UInt8 → Reader α} (h : ∀ all, Reads (family all) bytes value) :
    Reads (fun bytes => family bytes bytes) bytes value :=
  ⟨fun rest => (h _).whole rest, fun part lost hsplit hlost => (h part).cut part lost hsplit hlost⟩

end Reads

/-! ## Numbers -/

theorem length_littleEndian (n count : Nat) : (littleEndian n count).length = count := by
  induction count generalizing n with
  | zero => rfl
  | succ count ih => rw [littleEndian, List.length_cons, ih]

theorem ofLittleEndian_littleEndian {n count : Nat} (h : n < Nat.pow 256 count) :
    ofLittleEndian (littleEndian n count) = n := by
  induction count generalizing n with
  | zero =>
      show 0 = n
      have hone : n < 1 := h
      omega
  | succ count ih =>
      have hsucc : n < Nat.pow 256 count * 256 := h
      have hhigh : n / 256 < Nat.pow 256 count := Nat.div_lt_of_lt_mul (by omega)
      rw [littleEndian, ofLittleEndian, ih hhigh, Text.toNat_byte (by omega)]
      omega

theorem readBytes_reads (content : List UInt8) :
    Reads (readBytes content.length) content content := by
  constructor
  · intro rest
    have hlong : ¬ (content ++ rest).length < content.length := by simp
    rw [readBytes, if_neg hlong, List.take_left, List.drop_left]
  · rintro part lost rfl hlost
    have hpos : 0 < lost.length := List.length_pos_iff.2 hlost
    have hshort : part.length < (part ++ lost).length := by
      rw [List.length_append]
      omega
    refine ⟨lost.length, hpos, Nat.le_refl _, ?_⟩
    rw [readBytes, if_pos hshort, List.length_append, Nat.add_sub_cancel_left]

theorem readNumber_reads {n count : Nat} (h : n < Nat.pow 256 count) :
    Reads (readNumber count) (littleEndian n count) n := by
  have hbytes := readBytes_reads (littleEndian n count)
  rw [length_littleEndian] at hbytes
  have hnumber := hbytes.map ofLittleEndian
  rw [ofLittleEndian_littleEndian h] at hnumber
  exact hnumber

/-- A number in a single byte. -/
theorem readByte_reads {n : Nat} (h : n < 256) : Reads (readNumber 1) [Text.byte n] n := by
  have hbyte : Reads (readNumber 1) (littleEndian n 1) n := readNumber_reads h
  rw [littleEndian, littleEndian, Nat.mod_eq_of_lt h] at hbyte
  exact hbyte

/-! ## Lengths -/

/-- A length that eight bytes can hold. -/
def IsLength (n : Nat) : Prop := n < Nat.pow 2 64

instance (n : Nat) : Decidable (IsLength n) := inferInstanceAs (Decidable (n < Nat.pow 2 64))

/-- What is left to read of a length after its first byte. -/
def lengthAfter (measured : Measured) (mark : Nat) : Reader Nat := fun rest =>
  if mark < 251 then .ok (mark, rest)
  else if mark = 251 then readNumber 2 rest
  else if mark = 252 then readNumber 4 rest
  else if mark = 253 then readNumber 8 rest
  else if mark = 254 then .error (.wideLength measured)
  else .error (.reservedLength measured)

theorem readLength_reads (measured : Measured) {n : Nat} (h : IsLength n) :
    Reads (readLength measured) (writeLength n) n := by
  have hmarked {mark : Nat} {bytes : List UInt8} (hmark : mark < 256)
      (hbytes : Reads (lengthAfter measured mark) bytes n) :
      Reads (readLength measured) ([Text.byte mark] ++ bytes) n :=
    (readByte_reads hmark).bind hbytes
  unfold IsLength at h
  unfold writeLength
  split
  · next hone =>
    have hread : Reads (lengthAfter measured n) [] n := by
      have hpure : lengthAfter measured n = fun rest => .ok (n, rest) :=
        funext fun rest => if_pos hone
      rw [hpure]
      exact .pure n
    exact hmarked (by omega) hread
  · split
    · next htwo => exact hmarked (by decide) (readNumber_reads htwo)
    · split
      · next hfour => exact hmarked (by decide) (readNumber_reads hfour)
      · exact hmarked (by decide) (readNumber_reads h)

/-! ## Texts and diagnostics -/

/-- The text of bytes that have been taken. -/
def textOf (content : List UInt8) : Reader String := fun rest =>
  match Text.decodeText content with
  | .ok text => .ok (text, rest)
  | .error fault => .error (.notText fault)

/-- What is left to read of a text after its length. -/
def textAfter (length : Nat) : Reader String := fun rest => do
  let (content, rest) ← readBytes length rest
  textOf content rest

theorem textOf_reads (text : String) : Reads (textOf (Text.encodeText text)) [] text := by
  unfold textOf
  rw [Text.decodeText_encodeText]
  exact .pure text

theorem textAfter_reads (text : String) :
    Reads (textAfter (Text.encodeText text).length) (Text.encodeText text) text := by
  have hcontent := (readBytes_reads (Text.encodeText text)).bind (textOf_reads text)
  rw [List.append_nil] at hcontent
  exact hcontent

/-- A text is read behind its length. -/
theorem readText_reads {text : String} (h : IsLength (Text.encodeText text).length) :
    Reads readText (writeText text) text := by
  have hlength : Reads (fun bytes => readLength (measuredText bytes) bytes)
      (writeLength (Text.encodeText text).length) (Text.encodeText text).length :=
    .ahead fun all => readLength_reads (measuredText all) h
  exact hlength.bind (textAfter_reads text)

/-- What is left to read of an optional text after its first byte. -/
def optionalAfter (mark : Nat) : Reader (Option String) := fun rest =>
  if mark = 0 then .ok (none, rest)
  else if mark = 1 then do
    let (text, rest) ← readText rest
    return (some text, rest)
  else .error (.unknownOption mark)

theorem readOptional_reads {text : Option String}
    (h : ∀ content ∈ text, IsLength (Text.encodeText content).length) :
    Reads readOptional (writeOptional text) text := by
  have hmarked {mark : Nat} {bytes : List UInt8} (hmark : mark < 256)
      (hbytes : Reads (optionalAfter mark) bytes text) :
      Reads readOptional ([Text.byte mark] ++ bytes) text :=
    (readByte_reads hmark).bind hbytes
  cases text with
  | none => exact hmarked (show 0 < 256 by decide) (.pure none)
  | some content => exact hmarked (show 1 < 256 by decide) ((readText_reads (h content rfl)).map some)

/-- The lengths of a diagnostic can be written. -/
structure Writable (diagnostic : Diagnostic) : Prop where
  nodeId : ∀ id ∈ diagnostic.nodeId, IsLength (Text.encodeText id).length
  message : IsLength (Text.encodeText diagnostic.message).length

theorem readDiagnostic_reads {diagnostic : Diagnostic} (h : Writable diagnostic) :
    Reads readDiagnostic (writeDiagnostic diagnostic) diagnostic :=
  (readOptional_reads h.nodeId).both Diagnostic.mk (readText_reads h.message)

/-- Diagnostics are read one after the other. -/
theorem readDiagnostics_reads {diagnostics : List Diagnostic}
    (h : ∀ diagnostic ∈ diagnostics, Writable diagnostic) :
    Reads (readDiagnostics diagnostics.length) (diagnostics.flatMap writeDiagnostic) diagnostics := by
  induction diagnostics with
  | nil => exact .pure []
  | cons diagnostic diagnostics ih =>
      obtain ⟨hfirst, hlater⟩ := List.forall_mem_cons.1 h
      exact (readDiagnostic_reads hfirst).both List.cons (ih hlater)

/-- Take a list of diagnostics behind its length. -/
def readWarnings : Reader (List Diagnostic) := fun bytes => do
  let (count, rest) ← readLength .list bytes
  readDiagnostics count rest

theorem readWarnings_reads {warnings : List Diagnostic} (hcount : IsLength warnings.length)
    (h : ∀ warning ∈ warnings, Writable warning) :
    Reads readWarnings (writeDiagnostics warnings) warnings :=
  (readLength_reads .list hcount).bind (readDiagnostics_reads h)

/-! ## Compiled programs -/

/-- Take a compiled program and leave what is behind it. -/
def readScript : Reader Script := fun bytes => do
  let (fileId, rest) ← readText bytes
  let (source, rest) ← readText rest
  let (warnings, rest) ← readWarnings rest
  return (⟨fileId, source, warnings⟩, rest)

/-- An artifact is decoded by taking a compiled program from its front. -/
theorem decode_eq (bytes : List UInt8) : decode bytes = Prod.fst <$> readScript bytes := by
  unfold decode readScript
  cases readText bytes with
  | error fault => rfl
  | ok read =>
      obtain ⟨fileId, rest⟩ := read
      dsimp only [bind, Except.bind]
      cases readText rest with
      | error fault => rfl
      | ok read =>
          obtain ⟨source, rest⟩ := read
          dsimp only [readWarnings, bind, Except.bind]
          cases readLength .list rest with
          | error fault => rfl
          | ok read =>
              obtain ⟨count, rest⟩ := read
              dsimp only
              cases readDiagnostics count rest <;> rfl

end Artifact

/-- The lengths of a compiled program can be written, as all lengths of texts and lists in the memory of
a machine can. -/
structure Script.Writable (script : Script) : Prop where
  fileId : Artifact.IsLength (Text.encodeText script.fileId).length
  source : Artifact.IsLength (Text.encodeText script.source).length
  count : Artifact.IsLength script.warnings.length
  warnings : ∀ warning ∈ script.warnings, Artifact.Writable warning

namespace Artifact

theorem readScript_reads {script : Script} (h : script.Writable) :
    Reads readScript (encode script) script := by
  have hwarnings := readWarnings_reads h.count h.warnings
  have hrest := (readText_reads h.source).both (Script.mk script.fileId) hwarnings
  unfold encode
  rw [List.append_assoc]
  exact @Reads.bind _ _ _ _ _ _ (fun fileId rest => do
    let (source, rest) ← readText rest
    let (warnings, rest) ← readWarnings rest
    return (Script.mk fileId source warnings, rest)) _ (readText_reads h.fileId) hrest

/-- A compiled program is read back from its artifact, whatever bytes follow. An artifact that is cut
short is refused: bytes are missing, and not more of them than were cut off. -/
theorem artifact_reads_back (script : Script) (h : script.Writable) :
    (∀ rest, decode (encode script ++ rest) = .ok script) ∧
      ∀ part, part <+: encode script → part ≠ encode script →
        ∃ missing, 0 < missing ∧ part.length + missing ≤ (encode script).length ∧
          decode part = .error (.cut missing) := by
  have hreads := readScript_reads h
  constructor
  · intro rest
    rw [decode_eq, hreads.whole]
    rfl
  · rintro part ⟨lost, hsplit⟩ hne
    have hlost : lost ≠ [] := by
      rintro rfl
      rw [List.append_nil] at hsplit
      exact hne hsplit
    obtain ⟨missing, hpos, hle, hcut⟩ := hreads.cut part lost hsplit.symm hlost
    refine ⟨missing, hpos, ?_, ?_⟩
    · rw [← hsplit, List.length_append]
      omega
    · rw [decode_eq, hcut]
      rfl

/-- A compiled program with a text that is longer than one byte can tell, and warnings of both sorts. -/
def longScript : Script where
  fileId := "größe"
  source := String.ofList (List.replicate 300 '-')
  warnings := [⟨some "b", "lost"⟩, ⟨none, ""⟩]

/-- The length of the text stands behind a mark. Further bytes make no difference, and without the last
byte the length of the last message is missing. -/
theorem longScript_reads_back : longScript.Writable ∧
    ((encode longScript).drop 8).take 3 = [251, 44, 1] ∧
    decode (encode longScript ++ [255, 0]) = .ok longScript ∧
    decode (encode longScript).dropLast = .error (.cut 1) := by
  have hsource : Text.encodeText longScript.source = List.replicate 300 45 := by
    unfold Text.encodeText longScript
    rw [String.toList_ofList]
    decide +kernel
  have hwritable : longScript.Writable := by
    refine ⟨by decide +kernel, by rw [hsource]; decide +kernel, by decide +kernel, ?_⟩
    intro warning hwarning
    simp only [longScript, List.mem_cons, List.not_mem_nil, or_false] at hwarning
    rcases hwarning with rfl | rfl
    · exact ⟨by decide +kernel, by decide +kernel⟩
    · exact ⟨by decide +kernel, by decide +kernel⟩
  obtain ⟨hwhole, hcut⟩ := artifact_reads_back longScript hwritable
  have hencode : encode longScript = writeText longScript.fileId ++
      ([251, 44, 1] ++ List.replicate 300 45) ++ writeDiagnostics longScript.warnings := by
    have hlength : writeLength 300 = [251, 44, 1] := by decide
    rw [encode, ← hlength]
    simp only [writeText, hsource, List.length_replicate]
  refine ⟨hwritable, by rw [hencode]; decide +kernel, hwhole _, ?_⟩
  have hlength : (encode longScript).length = 322 := by
    rw [hencode]
    decide +kernel
  have hne : (encode longScript).dropLast ≠ encode longScript := fun heq => by
    have hshort := congrArg List.length heq
    rw [List.length_dropLast, hlength] at hshort
    cases hshort
  obtain ⟨missing, hpos, hle, hdecode⟩ := hcut _ (List.dropLast_prefix _) hne
  rw [List.length_dropLast, hlength] at hle
  obtain rfl : missing = 1 := by omega
  exact hdecode

end Artifact

end TickScript
