import RuntimeLog.Proofs.LogReader.Opening
import RuntimeLog.Proofs.Reading.Fields

/-!
# Written headers

A header is parsed from some bytes exactly if they start with what is written for it.
As long as a part of it is missing nothing is decided, and what was decided once stays
decided, whatever follows.
-/

namespace RuntimeLog

/-- A byte stands for a word size exactly if it is the one of this word size. -/
theorem WordSize.ofFlag?_eq_some_iff {byte : UInt8} {words : WordSize} :
    ofFlag? byte = some words ↔ byte = words.flag := by
  constructor
  · intro sized
    unfold ofFlag? at sized
    split at sized
    · rename_i zero
      cases sized
      exact beq_iff_eq.mp zero
    · split at sized
      · rename_i one
        cases sized
        exact beq_iff_eq.mp one
      · cases sized
  · rintro rfl
    exact ofFlag?_flag words

namespace Header

variable {header : Header} {flag : UInt8} {start : Nat} {bytes : Bytes}

/-- The bytes of a header, field by field. -/
theorem encode_eq (header : Header) :
    header.encode =
      [header.formatFlag] ++ (LittleEndian.encode 2 header.version.toNat ++
        ([header.words.flag] ++ ((Field.text header.machine).encode header.words ++ []))) := by
  simp [encode, fields, Field.encode]

/-- A header is read exactly from its own bytes, if it has the expected flag and the name
of the machine fits into its field. -/
theorem reads_reading :
    (reading flag).Reads start bytes header ↔
      header.formatFlag = flag ∧ (Field.text header.machine).Fits header.words ∧
        bytes = header.encode := by
  rw [encode_eq, reading, Reading.reads_bind]
  constructor
  · rintro ⟨formatFlag, first, _, rfl, readFlag, reads⟩
    split at reads
    · exact absurd reads Reading.not_reads_failed
    rename_i expected
    obtain ⟨version, second, _, rfl, readVersion, reads⟩ := Reading.reads_bind.mp reads
    obtain ⟨wordFlag, third, _, rfl, readWords, reads⟩ := Reading.reads_bind.mp reads
    split at reads
    · exact absurd reads Reading.not_reads_failed
    rename_i words sized
    obtain ⟨machine, fourth, rest, rfl, readMachine, reads⟩ := Reading.reads_bind.mp reads
    obtain ⟨rfl, rfl⟩ := Reading.reads_done.mp reads
    obtain rfl := Reading.reads_u8.mp readFlag
    obtain rfl := Reading.reads_u16.mp readVersion
    obtain rfl := Reading.reads_u8.mp readWords
    obtain ⟨rfl, fits⟩ := Reading.reads_text.mp readMachine
    obtain rfl := WordSize.ofFlag?_eq_some_iff.mp sized
    exact ⟨by simpa using expected, fits, rfl⟩
  · rintro ⟨rfl, fits, rfl⟩
    refine ⟨_, _, _, rfl, Reading.reads_u8.mpr rfl, ?_⟩
    rw [bne_self_eq_false, if_neg Bool.false_ne_true]
    refine Reading.reads_bind.mpr ⟨_, _, _, rfl, Reading.reads_u16.mpr rfl, ?_⟩
    refine Reading.reads_bind.mpr ⟨_, _, _, rfl, Reading.reads_u8.mpr rfl, ?_⟩
    rw [WordSize.ofFlag?_flag]
    refine Reading.reads_bind.mpr ⟨_, _, _, rfl, Reading.reads_text.mpr ⟨rfl, fits⟩, ?_⟩
    exact Reading.reads_done.mpr ⟨rfl, rfl⟩

/-- A header which was parsed is one which was read. -/
theorem parse_eq_some_iff {size : Nat} :
    parse bytes flag = .ok (some (header, size)) ↔
      (reading flag).run 0 bytes = .complete header size := by
  unfold parse
  constructor
  · intro parsed
    split at parsed
    · cases parsed
      assumption
    · cases parsed
    · cases parsed
  · intro complete
    rw [complete]

/-- A header which was parsed takes up the bytes by which it is written. -/
theorem take_of_parse {size : Nat} (parsed : parse bytes flag = .ok (some (header, size))) :
    bytes.take size = header.encode :=
  (reads_reading.mp (Reading.reads_of_run (parse_eq_some_iff.mp parsed))).2.2

/-- What is written for a header. -/
theorem toBytes_ofFields (header : Header) :
    (Writer.ofFields header.words header.fields).toBytes = header.encode :=
  Writer.toBytes_ofFields _ _

/-- A header is parsed exactly from the bytes by which it is written.  No part of them
which is at hand decides anything, and what is decided stays when more bytes arrive. -/
theorem parse_iff_written (flag : UInt8) (bytes : Bytes) :
    (∀ header size, parse bytes flag = .ok (some (header, size)) ↔
      header.formatFlag = flag ∧ (Text.toUtf8 header.machine).length < 2 ^ 32 ∧
        size ≤ bytes.length ∧
        bytes.take size = (Writer.ofFields header.words header.fields).toBytes) ∧
    (∀ header : Header, header.formatFlag = flag → (Text.toUtf8 header.machine).length < 2 ^ 32 →
      bytes <+: (Writer.ofFields header.words header.fields).toBytes →
      bytes ≠ (Writer.ofFields header.words header.fields).toBytes →
        parse bytes flag = .ok none) ∧
    (parse bytes flag ≠ .ok none → ∀ more, parse (bytes ++ more) flag = parse bytes flag) := by
  refine ⟨fun header size => ?_, fun header flagged short begins partly => ?_, parse_append⟩
  · rw [parse_eq_some_iff, Reading.run_eq_complete_iff, reads_reading, toBytes_ofFields]
    constructor
    · rintro ⟨bound, flagged, fits, written⟩
      exact ⟨flagged, fits, bound, written⟩
    · rintro ⟨flagged, fits, bound, written⟩
      exact ⟨bound, flagged, fits, written⟩
  · rw [toBytes_ofFields] at begins partly
    have reads : (reading flag).Reads 0 header.encode header :=
      reads_reading.mpr ⟨flagged, short, rfl⟩
    have missing : bytes.length < header.encode.length :=
      Nat.lt_of_le_of_ne begins.length_le fun same => partly (begins.eq_of_length same)
    have waits := reads.run_cut missing
    rw [← List.prefix_iff_eq_take.mp begins] at waits
    rw [parse, waits]

/-- A header with the name of a machine, in front of a record and with its last byte
missing. -/
theorem parse_of_machineName :
    parse ([0x23, 2, 0, 1, 2, 0, 0, 0, 0x61, 0x37] ++ [0x1a]) 0x23 =
        .ok (some
          ({ formatFlag := 0x23, version := 2, words := .four, machine := "a7" }, 10)) ∧
      parse [0x23, 2, 0, 1, 2, 0, 0, 0, 0x61] 0x23 = .ok none ∧
      ∀ more,
        parse ([0x23, 2, 0, 1, 2, 0, 0, 0, 0x61, 0x37] ++ [0x1a] ++ more) 0x23 =
          parse ([0x23, 2, 0, 1, 2, 0, 0, 0, 0x61, 0x37] ++ [0x1a]) 0x23 := by
  let header : Header := { formatFlag := 0x23, version := 2, words := .four, machine := "a7" }
  obtain ⟨written, _, settled⟩ :=
    parse_iff_written 0x23 ([0x23, 2, 0, 1, 2, 0, 0, 0, 0x61, 0x37] ++ [0x1a])
  obtain ⟨_, waits, _⟩ := parse_iff_written 0x23 [0x23, 2, 0, 1, 2, 0, 0, 0, 0x61]
  have parsed := (written header 10).mpr ⟨rfl, by decide, by decide, by decide⟩
  exact ⟨parsed, waits header rfl (by decide) (by decide) (by decide),
    settled (by rw [parsed]; simp)⟩

end Header
end RuntimeLog
