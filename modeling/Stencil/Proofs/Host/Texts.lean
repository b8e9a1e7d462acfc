import Mathlib
import Stencil.Page
set_option autoImplicit false

/-!
# Texts in a row

Some hosts do not tell texts that are written one after the other from the same
texts joined: they are in the same state afterwards, and they refuse one of the
texts exactly when they refuse the joined text.  A page is such a host, with every
capacity of its sink, since a text that does not fit is taken as far as it fits.
-/

namespace Stencil

/-- A host that takes texts in a row as it takes them joined. -/
class Host.JoinsTexts (σ : Type) [Host σ] : Prop where
  write_empty (host : σ) : Host.answer (.write "") host = (.ok (), host)
  write_append (s t : String) (host : σ) :
    Host.answer (.write (s ++ t)) host =
      match Host.answer (.write s) host with
      | (.ok (), host) => Host.answer (.write t) host
      | (.error e, host) => (.error e, host)

namespace Sink

theorem write_of_fits {s : Sink} {text : String} (h : s.fits text = true) :
    s.write text = (.ok (), { s with bytes := s.bytes ++ text.toUTF8 }) :=
  if_pos h

theorem write_of_not_fits {s : Sink} {text : String} (h : ¬ s.fits text = true) :
    s.write text =
      (.error .sinkFull,
        { s with bytes := s.bytes ++ text.toUTF8.extract 0 (s.capacity.getD 0 - s.bytes.size) }) :=
  if_neg h

theorem size_toUTF8 (text : String) : text.toUTF8.size = text.utf8ByteSize :=
  String.size_toByteArray

theorem toUTF8_append (a b : String) : (a ++ b).toUTF8 = a.toUTF8 ++ b.toUTF8 :=
  String.toByteArray_append

theorem write_empty (s : Sink) : s.write "" = (.ok (), s) := by
  have hfits : s.fits "" = true := by
    unfold fits
    split
    · rfl
    · exact decide_eq_true (Nat.zero_le _)
  rw [write_of_fits hfits]
  exact congrArg (fun bytes => (Except.ok (), { s with bytes })) ByteArray.append_empty

theorem not_fits_iff {s : Sink} {text : String} :
    ¬ s.fits text = true ↔ ∃ c, s.capacity = some c ∧ c - s.bytes.size < text.utf8ByteSize := by
  obtain ⟨bytes, capacity⟩ := s
  cases capacity with
  | none => simp [fits]
  | some c => simp [fits]

/-- Of two texts the first has to fit, and the second into what is left then. -/
theorem fits_append (s : Sink) (a b : String) :
    s.fits (a ++ b) = true ↔
      s.fits a = true ∧ Sink.fits { s with bytes := s.bytes ++ a.toUTF8 } b = true := by
  obtain ⟨bytes, capacity⟩ := s
  cases capacity with
  | none => simp [fits]
  | some c =>
    simp only [fits, decide_eq_true_eq, String.utf8ByteSize_append, ByteArray.size_append,
      size_toUTF8]
    omega

/-- As much of two texts as a length allows is as much of the first, and of the second as much as
the first leaves room for. -/
theorem extract_toUTF8_append (a b : String) (room : Nat) :
    (a ++ b).toUTF8.extract 0 room =
      a.toUTF8.extract 0 room ++ b.toUTF8.extract 0 (room - a.utf8ByteSize) := by
  rw [toUTF8_append, ByteArray.extract_append, Nat.zero_sub, size_toUTF8]

theorem extract_of_size_le {bytes : ByteArray} {room : Nat} (h : bytes.size ≤ room) :
    bytes.extract 0 room = bytes := by
  apply ByteArray.ext
  rw [ByteArray.data_extract]
  exact Array.extract_eq_self_of_le h

theorem write_append (s : Sink) (a b : String) :
    s.write (a ++ b) =
      match s.write a with
      | (.ok (), s) => s.write b
      | (.error e, s) => (.error e, s) := by
  by_cases hab : s.fits (a ++ b) = true
  · obtain ⟨ha, hb⟩ := (fits_append s a b).1 hab
    rw [write_of_fits hab, write_of_fits ha]
    dsimp only
    rw [write_of_fits hb, toUTF8_append, ByteArray.append_assoc]
  obtain ⟨c, hc, hroom⟩ := not_fits_iff.1 hab
  rw [write_of_not_fits hab, extract_toUTF8_append]
  by_cases ha : s.fits a = true
  · -- the sink ends within the second text
    have hb : ¬ Sink.fits { s with bytes := s.bytes ++ a.toUTF8 } b = true :=
      fun hb => hab ((fits_append s a b).2 ⟨ha, hb⟩)
    have hle : a.utf8ByteSize ≤ s.capacity.getD 0 - s.bytes.size := by
      by_contra hlt
      exact not_fits_iff.2 ⟨c, hc, by simpa [hc] using hlt⟩ ha
    have hrest : s.capacity.getD 0 - s.bytes.size - a.utf8ByteSize =
        s.capacity.getD 0 - (s.bytes ++ a.toUTF8).size := by
      rw [ByteArray.size_append, size_toUTF8, Nat.sub_sub]
    have hwhole : a.toUTF8.extract 0 (s.capacity.getD 0 - s.bytes.size) = a.toUTF8 :=
      extract_of_size_le hle
    rw [write_of_fits ha, hwhole, hrest, ← ByteArray.append_assoc]
    exact (write_of_not_fits hb).symm
  · -- the sink ends within the first text
    obtain ⟨d, hd, hlt⟩ := not_fits_iff.1 ha
    have hnone : s.capacity.getD 0 - s.bytes.size - a.utf8ByteSize = 0 := by
      rw [hd, Option.getD_some]
      omega
    rw [write_of_not_fits ha, hnone, ByteArray.extract_same, ByteArray.append_empty]

end Sink

instance : Host.JoinsTexts Page where
  write_empty p := by
    have hsink := p.sink.write_empty
    simp only [Host.answer, hsink]
  write_append s t p := by
    have hsink := p.sink.write_append s t
    simp only [Host.answer, hsink]
    rcases p.sink.write s with ⟨_ | _, sink⟩
    · rfl
    · rfl

end Stencil
