import Stencil.Host
set_option autoImplicit false

/-!
# Sinks

A sink takes output as bytes, up to its capacity if it has one.  Of a text that
does not fit, the bytes that fit are taken and the writing fails; an empty text
always fits.
-/

namespace Stencil

/-- The bytes written so far, and how many the sink takes in all. -/
structure Sink where
  bytes : ByteArray := .empty
  capacity : Option Nat := none

namespace Sink

/-- The text fits. -/
def fits (s : Sink) (text : String) : Bool :=
  match s.capacity with
  | none => true
  | some c => text.utf8ByteSize ≤ c - s.bytes.size

/-- The sink after a text was written. -/
def write (s : Sink) (text : String) : Except WriteError Unit × Sink :=
  if s.fits text then (.ok (), { s with bytes := s.bytes ++ text.toUTF8 })
  else
    let room := s.capacity.getD 0 - s.bytes.size
    (.error .sinkFull, { s with bytes := s.bytes ++ text.toUTF8.extract 0 room })

/-- The text of bytes that were written as texts.  A last character that was cut shows as the
replacement character. -/
def textOf (bytes : ByteArray) : String :=
  let whole? := [0, 1, 2, 3].findSome? fun cut =>
    (String.fromUTF8? (bytes.extract 0 (bytes.size - cut))).map fun s =>
      if cut = 0 then s else s ++ "\uFFFD"
  whole?.getD ""

/-- The text written so far. -/
def text (s : Sink) : String := textOf s.bytes

end Sink

end Stencil
