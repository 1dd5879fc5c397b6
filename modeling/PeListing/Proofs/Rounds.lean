import PeListing.Proofs.Sweep

/-!
# One round of a listing

A listing is printed by one loop, in which labels, counts and the place of the decoder go along
together. What is printed for a line can be said without the loop: above the line stands its label
(`labelAbove`), then come its address, its bytes and its text (`lineText`). Here is what the steps of
one round do: a label is printed in two pieces (`printLabel_after`), a round makes the line of what
the decoder has found and brings the decoder behind it (`round_yields`), and the line is printed
(`printRound_after`).
-/

namespace PeListing

/-- The digits of an address are few enough to be printed. -/
theorem Line.layoutWithin_addressWidth {ε : Type} (kind : Kind) (address : Nat)
    (bytes : List UInt8) (text : String) :
    (Line.layoutWithin kind.addressWidth address bytes text : Except (Fault ε) String) =
      .ok (Line.layout kind.addressWidth address bytes text) := by
  have hwidth : kind.addressWidth < Numeral.widthLimit := by cases kind <;> decide
  rw [layoutWithin, if_pos hwidth]

/-! ### Listings in progress -/

namespace Printer

variable {α β : Type}

/-- What is done next goes on from the value and the printout of what was done first. -/
theorem after_bind_of_ok {p : Printer α} {f : α → Printer β} {out out' : Printout} {a : α}
    (h : p.after out = (.ok a, out')) : (p >>= f).after out = (f a).after out' :=
  run_run_bind_of_ok h

/-- A fault ends the listing. -/
theorem after_bind_of_error {p : Printer α} {f : α → Printer β} {out out' : Printout}
    {fault : Fault DisassemblyError} (h : p.after out = (.error fault, out')) :
    (p >>= f).after out = (.error fault, out') := run_run_bind_of_error h

/-- What is printed comes last. -/
theorem after_print (text : String) (out : Printout) :
    (print text).after out = (.ok (), { out with pieces := text :: out.pieces }) := rfl

/-- Log records come last. -/
theorem after_logAll (records : List Log.Record) (out : Printout) :
    (logAll records).after out =
      (.ok (), { out with records := records.reverse ++ out.records }) := rfl

/-- A computation leaves the printout as it is. -/
theorem after_ofExcept {x : Except (Fault DisassemblyError) α} {a : α} (h : x = .ok a)
    (out : Printout) : (ofExcept x).after out = (.ok a, out) := by
  rw [h]
  rfl

end Printer

/-- A decoder is set to a position, or it refuses. -/
theorem Disassembler.Core.moveTo_yields (d : Disassembler.Core) (code : Array UInt8) (c : Cursor)
    (position : Nat) :
    Yields (d.moveTo code c position) (fun next => next.position = position)
      fun _ => ∃ reason, d.setPosition code c position = .error reason := by
  unfold moveTo
  cases hset : d.setPosition code c position with
  | ok next => exact d.setPosition_position hset
  | error reason => exact ⟨reason, rfl⟩

namespace Frame

variable {d : Disassembler.Core} (f : Frame d) (table : SymbolTable) (settings : ListingSettings)

/-! ### What is printed of a line -/

/-- The symbol whose name stands above a line. -/
def labelOf (line : Line d.Instruction) : Option Symbol := f.labelAt table settings line.address

/-- The text of a line behind its bytes. -/
def lineText (line : Line d.Instruction) : String :=
  match line.instruction with
  | some i => d.format (f.style table settings) f.mode i
  | none => String.join (line.bytes.map Line.dataText)

/-- The two pieces in which a label is printed: an empty line, then the name and a colon. -/
def labelPieces : Option Symbol → List String
  | some symbol => ["\n", symbol.name ++ ":\n"]
  | none => []

/-- The label above a line, empty where it has none. -/
def labelAbove (line : Line d.Instruction) : String :=
  String.join (labelPieces (f.labelOf table settings line))

/-! ### The steps of a round -/

/-- A label is printed and counted. -/
theorem printLabel_after {stats : ListingStats} (h : stats.labels + 1 < Word.limit)
    (address : UInt64) (out : Printout) :
    (f.printLabel table settings stats address).after out =
      (.ok { stats with
        labels := stats.labels + (f.labelAt table settings address).isSome.toNat },
        { out with
          pieces := (labelPieces (f.labelAt table settings address)).reverse ++ out.pieces }) := by
  unfold printLabel
  cases f.labelAt table settings address with
  | none => rfl
  | some symbol =>
    dsimp only
    rw [Printer.after_bind_of_ok (Printer.after_print _ _),
      Printer.after_bind_of_ok (Printer.after_print _ _),
      Printer.after_bind_of_ok (Printer.after_ofExcept (Word.add_of_lt h) _)]
    rfl

/-- The line of a round is printed. -/
theorem printRound_after (r : Round d) (out : Printout) :
    (f.printRound r).after out =
      (.ok (), { out with pieces := (r.line.columns f.kind ++ r.text ++ "\n") :: out.pieces }) := by
  unfold printRound
  rw [Printer.after_bind_of_ok (Printer.after_ofExcept
    (Line.layoutWithin_addressWidth f.kind _ r.line.bytes r.text) _)]
  rfl

/-- What a round comes to if the decoder stands at some place: the line of what is found there, with
its text, counted, and the decoder behind it. Behind a byte that is no instruction, the address is set
as well. -/
structure Takes (code : Array UInt8) (stats : ListingStats) (address : UInt64) (c : Cursor)
    (r : Round d) : Prop where
  /-- The line is that of what is found. -/
  line_eq : r.line = .ofFound d code c.position address (d.decode f.mode code c).1
  /-- Its text is printed. -/
  text_eq : r.text = f.lineText table settings r.line
  /-- It is counted. -/
  stats_eq : r.stats = { stats with
    instructions := stats.instructions + r.line.instruction.isSome.toNat
    invalidBytes := stats.invalidBytes + r.line.instruction.isNone.toNat }
  /-- The decoder stands behind it. -/
  position_eq : r.next.position = c.position + d.taken r.line.instruction
  /-- Behind an instruction the decoder is where it went by itself. -/
  next_eq : r.line.instruction.isSome → r.next = (d.decode f.mode code c).2
  /-- Behind another byte its address is the next one. -/
  ip_eq : r.line.instruction = none → r.next.ip = address + 1

/-- A round takes what is found. It ends in a defect only if the decoder refuses to go on behind a byte
that is no instruction. -/
theorem round_yields {code : Array UInt8} {c : Cursor} (stats : ListingStats) (address : UInt64)
    (hinstructions : stats.instructions + 1 < Word.limit)
    (hinvalidBytes : stats.invalidBytes + 1 < Word.limit) (hc : c.position < code.size)
    (hsize : code.size < Word.limit) :
    Yields (f.round table settings code stats c.position address (d.decode f.mode code c))
      (f.Takes table settings code stats address c)
      fun _ => ∃ reason, d.setPosition code (d.decode f.mode code c).2 (c.position + 1) =
        .error reason := by
  rcases hdecode : d.decode f.mode code c with ⟨_ | i, moved⟩
  · refine (Yields.add (by omega)).bind ?_
    rintro _ rfl
    refine (Yields.span (by omega) (by omega)).bind ?_
    rintro _ rfl
    have hbyte : (code.extract c.position (c.position + 1)).toList = [code[c.position]] := by
      rw [Array.toList_extract, List.extract_eq_take_drop, Nat.add_sub_cancel_left,
        List.drop_eq_getElem_cons (by simpa using hc)]
      rfl
    have helement : Yields (Select.element (code.extract c.position (c.position + 1)).toList 0 :
        Except (Fault DisassemblyError) UInt8) (· = code[c.position]) fun _ => ∃ reason,
          d.setPosition code moved (c.position + 1) = .error reason := by
      rw [hbyte]
      rfl
    refine helement.bind ?_
    rintro _ rfl
    refine (d.moveTo_yields code moved (c.position + 1)).bind fun next hnext => ?_
    refine (Yields.add (by omega)).bind ?_
    rintro _ rfl
    refine .pure ⟨?_, ?_, rfl, hnext, by simp, fun _ => rfl⟩
    · rw [hdecode]
      rfl
    · simp only [lineText, hbyte]
      simp [String.join]
  · obtain ⟨-, hend, hmoved⟩ := d.decode_inside hc hdecode
    refine (Yields.add (by omega)).bind ?_
    rintro _ rfl
    refine (Yields.add (by omega)).bind ?_
    rintro _ rfl
    refine (Yields.span (by omega) hend).bind ?_
    rintro _ rfl
    refine .pure ⟨?_, rfl, rfl, hmoved, fun _ => ?_, by simp⟩
    · rw [hdecode]
      rfl
    · rw [hdecode]

end Frame

end PeListing
