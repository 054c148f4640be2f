/-
  Pushdown/Proofs/Wire/Transcript.lean
  ====================================
  **All that the VM says arrives.**  A `Transcript` is what the VM sends when it has these
  messages to tell: their lines in order, each with a line feed or a carriage return and a
  line feed, and empty lines wherever it likes.  Cut into pieces of any size, it reads as
  these messages and nothing else.

  The two halves meet in the line: framing gives back the text of each line
  (`message?_of_fitsEnd`), and the text is taken for the message that it was written for.
-/
import Pushdown.Proofs.Wire.Framing
import Pushdown.Proofs.Wire.Messages

namespace Pushdown

open Text

/-! ### Ends of lines -/

inductive LineEnd where
  | feed
  | returnFeed
deriving DecidableEq, Repr

namespace LineEnd

/-- What stands before the line feed. -/
def returns : LineEnd → List UInt8
  | .feed => []
  | .returnFeed => Utf8.encode ['\r']

def bytes (e : LineEnd) : List UInt8 := e.returns ++ [lineFeed]

theorem lineFeed_not_mem_returns (e : LineEnd) : lineFeed ∉ e.returns := by
  cases e <;> decide

theorem returns_eq (e : LineEnd) : ∃ n, e.returns = Utf8.encode (List.replicate n '\r') := by
  cases e with
  | feed => exact ⟨0, rfl⟩
  | returnFeed => exact ⟨1, rfl⟩

end LineEnd

/-- Returns at the end of a line are dropped, whatever their number. -/
theorem dropEndWhile_append_returns {cs : List Char} (hlast : cs.getLast? ≠ some '\r') (n : Nat) :
    dropEndWhile (· == '\r') (cs ++ List.replicate n '\r') = cs := by
  induction n with
  | zero =>
    rw [List.replicate_zero, List.append_nil]
    refine List.rdropWhile_eq_self_iff.mpr fun hne hreturn => hlast ?_
    rw [List.getLast?_eq_some_getLast hne, eq_of_beq hreturn]
  | succ n ih =>
    rw [List.replicate_succ', ← List.append_assoc]
    exact (List.rdropWhile_concat_pos _ _ _ rfl).trans ih

theorem lineText_of_fitsEnd {text : String} (fits : FitsEnd text) (e : LineEnd) :
    lineText (Utf8.encode text.toList ++ e.returns) = text := by
  obtain ⟨n, hreturns⟩ := e.returns_eq
  rw [lineText, hreturns, ← Utf8.encode_append, Utf8.decodeLossy_encode,
    dropEndWhile_append_returns fits.no_return, String.ofList_toList]

theorem message?_of_fitsEnd {text : String} (fits : FitsEnd text) (e : LineEnd) :
    message? (Utf8.encode text.toList ++ e.returns) =
      if text = "" then none else some (Incoming.ofLine text) := by
  rw [message?, lineText_of_fitsEnd fits]
  simp

/-- The line of a message is taken for that message. -/
theorem takeAll_message {m : Incoming} {line : String} (sendable : m.IsSendable)
    (written : m.IsWritten line) (e : LineEnd) (rest : List UInt8) :
    LineBuffer.takeAll ⟨Utf8.encode line.toList ++ e.bytes ++ rest⟩ =
      (m :: (LineBuffer.takeAll ⟨rest⟩).1, (LineBuffer.takeAll ⟨rest⟩).2) := by
  have hfits := Incoming.fitsEnd_of_isWritten sendable written
  have hread := Incoming.ofLine_of_isWritten sendable written
  have hne : line ≠ "" := by
    -- an empty line would be malformed
    rintro rfl
    rw [← hread] at sendable
    exact sendable
  have hbytes : Utf8.encode line.toList ++ e.bytes ++ rest =
      (Utf8.encode line.toList ++ e.returns) ++ lineFeed :: rest := by simp [LineEnd.bytes]
  have hfeed : lineFeed ∉ Utf8.encode line.toList ++ e.returns := by
    refine List.not_mem_append ?_ e.lineFeed_not_mem_returns
    refine Utf8.not_mem_encode (by decide) fun c hc hcode => ?_
    have hc' : c = '\n' := Char.toNat_inj.mp hcode
    exact hfits.one_line (hc' ▸ hc)
  rw [hbytes, LineBuffer.takeAll_line hfeed, message?_of_fitsEnd hfits, if_neg hne, hread]
  rfl

/-! ### Transcripts -/

/-- What the VM may send to tell these messages. -/
inductive Transcript : List Incoming → List UInt8 → Prop
  | nil : Transcript [] []
  | blank {ms : List Incoming} {bytes : List UInt8} (e : LineEnd) (rest : Transcript ms bytes) :
      Transcript ms (e.bytes ++ bytes)
  | message {m : Incoming} {line : String} {ms : List Incoming} {bytes : List UInt8}
      (written : m.IsWritten line) (e : LineEnd) (rest : Transcript ms bytes) :
      Transcript (m :: ms) (Utf8.encode line.toList ++ e.bytes ++ bytes)

namespace Transcript

theorem takeAll {ms : List Incoming} {bytes : List UInt8} (transcript : Transcript ms bytes)
    (sendable : ∀ m ∈ ms, m.IsSendable) :
    LineBuffer.takeAll ⟨bytes⟩ = (ms, LineBuffer.empty) := by
  induction transcript with
  | nil => exact LineBuffer.takeAll_of_not_mem List.not_mem_nil
  | @blank ms bytes e rest ih =>
    have hbytes : e.bytes ++ bytes = e.returns ++ lineFeed :: bytes := by simp [LineEnd.bytes]
    have hempty : FitsEnd "" := ⟨by decide, by decide⟩
    have hmessage : message? e.returns = none := by
      have htext := message?_of_fitsEnd hempty e
      rwa [if_pos rfl, String.toList_empty, Utf8.encode, List.flatMap_nil, List.nil_append] at htext
    rw [hbytes, LineBuffer.takeAll_line e.lineFeed_not_mem_returns, hmessage, ih sendable]
    rfl
  | @message m line ms bytes written e rest ih =>
    obtain ⟨hm, hms⟩ := List.forall_mem_cons.mp sendable
    rw [takeAll_message hm written, ih hms]

/-- **However it is cut into pieces, a transcript reads as its messages.** -/
theorem arrives {ms : List Incoming} {bytes : List UInt8} (sendable : ∀ m ∈ ms, m.IsSendable)
    (transcript : Transcript ms bytes) (chunks : List (List UInt8))
    (cut : chunks.flatten = bytes) :
    LineBuffer.empty.takeChunks chunks = (ms, LineBuffer.empty) := by
  have hnone : lineFeed ∉ LineBuffer.empty.rest := List.not_mem_nil
  rw [LineBuffer.takeChunks_eq hnone, cut]
  exact transcript.takeAll sendable

/-- Texts that look like other messages, an empty line, an empty text whose space is left
    out, and a cut in the middle of a token. -/
theorem arrives_lookalikes :
    let ms : List Incoming := [.reply ⟨18446744073709551615, .ok "error 1"⟩,
      .event (.output "#1 ok"), .event (.suspended 1 (.other "breakpoint x")),
      .reply ⟨2, .error (-9223372036854775808) ""⟩]
    let bytes := Utf8.encode "#18446744073709551615 ok error 1".toList ++ LineEnd.returnFeed.bytes ++
      (LineEnd.feed.bytes ++ (Utf8.encode "output #1 ok".toList ++ LineEnd.feed.bytes ++
      (Utf8.encode "suspended 1 breakpoint x".toList ++ LineEnd.feed.bytes ++
      (Utf8.encode "#2 error -9223372036854775808".toList ++ LineEnd.feed.bytes ++ []))))
    (∀ m ∈ ms, m.IsSendable) ∧ Transcript ms bytes ∧
      [bytes.take 5, bytes.drop 5].flatten = bytes ∧
      LineBuffer.empty.takeChunks [bytes.take 5, bytes.drop 5] = (ms, LineBuffer.empty) := by
  intro ms bytes
  have hother : IsOther StopReason.IsKnown "breakpoint x" := by
    refine ⟨["breakpoint", "x"], by decide, ?_, rfl⟩
    intro known
    generalize hws : ["breakpoint", "x"] = ws at known
    cases known with
    | breakpoint number =>
      obtain rfl : "x" = _ := by simpa using hws
      cases number
    | _ => simp at hws
  have hsendable : ∀ m ∈ ms, m.IsSendable := by
    simp only [ms, List.forall_mem_cons]
    exact ⟨⟨by decide, by decide, by decide⟩, ⟨by decide, by decide⟩, hother,
      ⟨by decide, by decide, by decide⟩, List.forall_mem_nil _⟩
  have hsuspended : Event.IsWritten (.suspended 1 (.other "breakpoint x"))
      ("suspended " ++ (toString (1 : ThreadId) ++ (" " ++ "breakpoint x"))) :=
    .suspended 1 (.spaced "breakpoint x")
  have htranscript : Transcript ms bytes := by
    refine .message ?_ .returnFeed (.blank .feed (.message ?_ .feed (.message ?_ .feed
      (.message ?_ .feed .nil))))
    · have hline : "#18446744073709551615 ok error 1" =
          "#" ++ (toString (18446744073709551615 : Nat) ++ (" " ++
            ("ok" ++ (" " ++ "error 1")))) := by decide
      rw [hline]
      exact .reply (.ok (.spaced "error 1"))
    · have hline : "output #1 ok" = "output" ++ (" " ++ "#1 ok") := by decide
      rw [hline]
      exact .event (.output (.spaced "#1 ok"))
    · have hline : "suspended 1 breakpoint x" =
          "suspended " ++ (toString (1 : ThreadId) ++ (" " ++ "breakpoint x")) := by decide
      rw [hline]
      exact .event hsuspended
    · have hline : "#2 error -9223372036854775808" =
          "#" ++ (toString (2 : Nat) ++ (" " ++
            ("error " ++ (toString (-9223372036854775808 : Int64) ++ "")))) := by decide
      rw [hline]
      exact .reply (.error _ .bare)
  have hcut : [bytes.take 5, bytes.drop 5].flatten = bytes := by simp
  exact ⟨hsendable, htranscript, hcut, arrives hsendable htranscript _ hcut⟩

end Transcript

end Pushdown
