import DmaReadout.Fault

/-! # Reading names

Texts read as patterns, modes and cards; a text that is none of them is a fault of the
configuration. -/

namespace DmaReadout

/-- The pattern that a text names. -/
def Pattern.parse (text : String) : Except Error Pattern :=
  (Pattern.ofText? text).elim (.error (.config (.unknownPattern text))) .ok

/-- The readout mode that a text names. -/
def ReadoutMode.parse (text : String) : Except Error ReadoutMode :=
  (ReadoutMode.ofText? text).elim (.error (.config (.unknownMode text))) .ok

/-- The card that a text addresses. -/
def CardId.parse (text : String) : Except Error CardId :=
  (CardId.ofText? text).elim (.error (.config (.unknownCard text))) .ok

end DmaReadout
