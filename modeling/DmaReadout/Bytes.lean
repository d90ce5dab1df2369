import DmaReadout.Pattern

/-! # Words as bytes

* `Word.bytes`: the four bytes of a word, the least significant first.
* `Word.ofBytes`: the word of four bytes; `Word.ofBytes_bytes`: nothing is lost.
* `bytesOfWords`: the bytes of a sequence of words. -/

namespace DmaReadout

/-- The four bytes of a word, the least significant first. -/
def Word.bytes (w : Word) : List UInt8 :=
  [w.toUInt8, (w >>> 8).toUInt8, (w >>> 16).toUInt8, (w >>> 24).toUInt8]

/-- The word of four bytes, the least significant first. -/
def Word.ofBytes (a b c d : UInt8) : Word :=
  a.toUInt32 ||| (b.toUInt32 <<< 8) ||| (c.toUInt32 <<< 16) ||| (d.toUInt32 <<< 24)

theorem Word.ofBytes_bytes (w : Word) :
    Word.ofBytes w.toUInt8 (w >>> 8).toUInt8 (w >>> 16).toUInt8 (w >>> 24).toUInt8 = w := by
  unfold Word.ofBytes
  apply UInt32.toBitVec_inj.1
  simp only [UInt32.toBitVec_or, UInt32.toBitVec_shiftLeft, UInt8.toBitVec_toUInt32,
    UInt32.toBitVec_toUInt8, UInt32.toBitVec_shiftRight]
  ext i hi
  simp
  grind

/-- The bytes with those of a word behind them. -/
def pushWord (out : ByteArray) (w : Word) : ByteArray :=
  (((out.push w.toUInt8).push (w >>> 8).toUInt8).push (w >>> 16).toUInt8).push (w >>> 24).toUInt8

/-- The bytes of a sequence of words. -/
def bytesOfWords (ws : Array Word) : ByteArray :=
  ws.foldl pushWord (ByteArray.emptyWithCapacity (4 * ws.size))

end DmaReadout
