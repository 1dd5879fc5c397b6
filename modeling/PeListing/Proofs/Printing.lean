import PeListing.Command.Run
import PeListing.Proofs.ListingText

/-!
# What a command prints while it disassembles

A command decodes and prints line by line, and each line has steps that may fail: the line is cut
from the code, it is counted, the decoder is set behind an invalid byte, the address is laid out.
With a disassembler that refuses no position of the code none of them does. So a listing is either
printed whole, or refused for its machine before anything is printed
(`Session.printListing_after`, `Session.printListing_after_of_ia64`).
-/

namespace PeListing

/-- What a notice says to the user, if it is no log record. -/
def Notice.spoken? : Notice → Option String
  | .message text => some text
  | .record _ => none

namespace Transcript

/-- What has been said to the user, in order. -/
def spoken (t : Transcript) : List String := (t.notices.filterMap Notice.spoken?).reverse

/-- Log records are not said to the user. -/
theorem spoken_records (records : List Log.Record) (notices : List Notice)
    (printed : List String) :
    spoken ⟨records.map .record ++ notices, printed⟩ = spoken ⟨notices, printed⟩ := by
  have hnone : (records.map Notice.record).filterMap Notice.spoken? = [] := by
    simp [Notice.spoken?, Function.comp_def]
  rw [spoken, List.filterMap_append, hnone, List.nil_append]
  rfl

end Transcript

namespace Session

variable {α β : Type}

/-- What becomes of a session that starts with some transcript. -/
def after (s : Session α) (t : Transcript) : Except Abandoned α × Transcript := s.run.run t

/-- What is done next goes on from the value and the transcript of what was done first. -/
theorem after_bind_of_ok {s : Session α} {f : α → Session β} {t t' : Transcript} {a : α}
    (h : s.after t = (.ok a, t')) : (s >>= f).after t = (f a).after t' := run_run_bind_of_ok h

/-- A session that has ended does nothing more. -/
theorem after_bind_of_error {s : Session α} {f : α → Session β} {t t' : Transcript}
    {reason : Abandoned} (h : s.after t = (.error reason, t')) :
    (s >>= f).after t = (.error reason, t') := run_run_bind_of_error h

/-- What is printed comes last. -/
theorem after_print (text : String) (t : Transcript) :
    (print text).after t = (.ok (), { t with printed := text :: t.printed }) := rfl

/-- A listing that comes to its end prints and logs in the session what it does by itself. -/
theorem after_list_of_ok {p : Printer α} {a : α} {out : Printout} (h : p.after {} = (.ok a, out))
    (t : Transcript) :
    (list p).after t =
      (.ok a, ⟨out.records.map .record ++ t.notices, out.pieces ++ t.printed⟩) := by
  change ((p.after {}).1.mapError (Abandoned.ofFault .disassembly), Transcript.mk
    ((p.after {}).2.records.map .record ++ t.notices) ((p.after {}).2.pieces ++ t.printed)) = _
  rw [h]
  rfl

/-- The listing of an image is refused if its code is for a machine that cannot be decoded, before
anything is printed. -/
theorem printListing_after_of_ia64 {image : Image} (h : image.machine = .ia64)
    (d : Disassembler.Core) (settings : ListingSettings) (table : SymbolTable) (t : Transcript) :
    (printListing d settings image table).after t =
      (.error (.failed none (.disassembly (.undecodableMachine .ia64))), t) := by
  unfold printListing Image.printListing
  rw [h]
  rfl

/-- Otherwise the whole text of the listing is printed and its counts are logged. -/
theorem printListing_after {image : Image} (hsections : image.sections.length < 0x10000)
    (hmachine : image.machine ≠ .ia64) (d : Disassembler) (settings : ListingSettings)
    (table : SymbolTable) (t : Transcript) :
    ∃ written t', image.writeListing d table settings = .ok written ∧
      (printListing d settings image table).after t = (.ok (), t') ∧
      t'.output = t.output ++ written.text ∧
      t'.notices = (written.stats.record :: written.records.reverse).map .record ++ t.notices ∧
      t'.spoken = t.spoken := by
  obtain ⟨l, records, h⟩ := image.exists_disassembly d hsections hmachine
  have hlist := after_list_of_ok (h.printListing_after table settings {}) t
  rw [List.append_nil, List.append_nil] at hlist
  have hrun : (printListing d settings image table).after t =
      (.ok (), ⟨((l.tally table settings l.lines).record :: records.reverse).map .record ++ t.notices,
        (l.lines.flatMap (l.pieces table settings)).reverse ++ t.printed⟩) := by
    unfold printListing
    rw [after_bind_of_ok hlist]
    rfl
  refine ⟨_, _, h.writeListing_eq table settings, hrun, ?_, rfl, Transcript.spoken_records _ _ _⟩
  rw [Transcript.output, List.reverse_append, List.reverse_reverse, String.join_append,
    l.join_flatMap_pieces]
  rfl

end Session

end PeListing
