import DmaReadout.Card
import DmaReadout.Duration
import DmaReadout.Pattern

/-! # Failures

* `ConfigFault`, `CapabilityFault`, `QueueFault`, `BufferFault`, `ChannelFault`, `FileFault`: what
  can be wrong, one constructor for each cause.
* `Error`: a failure of an operation, with its text `Error.message`.
* `Misuse`: a call outside the contract of an operation.
* `bind_eq_ok`: operations in a chain. -/

namespace DmaReadout

/-- What can be wrong with a configuration or a request. -/
inductive ConfigFault where
  | unknownPattern (text : String)
  | unknownMode (text : String)
  | unknownCard (text : String)
  | bufferSizeForm (text : String)
  | bufferSizeUnit (unit : String)
  | bufferSizeCount (text : String)
  | bufferSizeTooLarge (text : String)
  | twoDumps
  | superpageMebibytes (count : Nat)
  | pageKibibytes (count : Nat)
  | pageSize (bytes : Nat)
  | superpageSize (superpage page : Nat)
  | bufferBelowSuperpage (buffer superpage : Nat)
  | hammerMultiplier
  | monitorInterval
  | pauseInterval (least greatest : Duration)
  | pauseLength (least greatest : Duration)
  | unevenSuperpage (superpage page : Nat)
  | noSuperpage (buffer superpage : Nat)
  | emptyBuffer
  | viewTooLarge (offset length : Nat)
  | viewOutside (offset stop size : Nat)
  | viewMisaligned (offset length : Nat)
  | channelPageSize (bytes : Nat)
  | bufferTooSmall (bytes count : Nat)
  /-- Any other fault, described by its text. -/
  | other (text : String)
  deriving Repr, DecidableEq

/-- The text of a configuration fault. -/
def ConfigFault.message : ConfigFault → String
  | unknownPattern text => s!"unknown generator pattern '{text}'"
  | unknownMode text => s!"unknown readout mode '{text}'"
  | unknownCard text => s!"unrecognised card id '{text}'"
  | bufferSizeForm text => s!"invalid buffer size '{text}'"
  | bufferSizeUnit unit => s!"invalid buffer size unit '{unit}', expected MB or GB"
  | bufferSizeCount text => s!"invalid buffer size argument '{text}'"
  | bufferSizeTooLarge text => s!"buffer size '{text}' overflows"
  | twoDumps => "file output can't be both ASCII and binary"
  | superpageMebibytes count => s!"invalid superpage size {count} MiB"
  | pageKibibytes count => s!"invalid DMA page size {count} KiB"
  | pageSize bytes => s!"DMA page size {bytes} must be a non-zero multiple of 4 bytes"
  | superpageSize superpage page =>
    s!"superpage size {superpage} must be a multiple of the DMA page size {page}"
  | bufferBelowSuperpage buffer superpage =>
    s!"buffer size {buffer} smaller than superpage size {superpage}"
  | hammerMultiplier => "BAR hammer multiplier must be > 0"
  | monitorInterval => "monitor interval must be > 0"
  | pauseInterval least greatest =>
    s!"pause interval range {least.render}..{greatest.render} is empty"
  | pauseLength least greatest =>
    s!"pause length range {least.render}..{greatest.render} is empty"
  | unevenSuperpage superpage page =>
    s!"superpage size {superpage} is not a multiple of page size {page}"
  | noSuperpage buffer superpage =>
    s!"buffer too small: {buffer} bytes cannot hold a {superpage} byte superpage"
  | emptyBuffer => "DMA buffer length must be > 0"
  | viewTooLarge offset length => s!"page view {offset}+{length} overflows"
  | viewOutside offset stop size => s!"page view {offset}..{stop} outside buffer of {size} bytes"
  | viewMisaligned offset length => s!"page view {offset}+{length} not aligned to 4 bytes"
  | channelPageSize bytes => s!"invalid DMA page size {bytes}"
  | bufferTooSmall bytes count => s!"buffer of {bytes} bytes cannot hold {count} superpages"
  | other text => text

/-- What a card cannot do. -/
inductive CapabilityFault where
  | hammer (family : Family)
  | inUse (channel : UInt32) (card : CardId)
  | noDriver (card : CardId)
  /-- Any other missing capability, described by its text. -/
  | other (text : String)
  deriving Repr, DecidableEq

/-- The text of a missing capability. -/
def CapabilityFault.message : CapabilityFault → String
  | hammer family => s!"BAR hammer is only supported for CRU, not {family.name}"
  | inUse channel card => s!"channel {channel.toNat} of card {card.render} is already in use"
  | noDriver card =>
    s!"no DMA driver available for card {card.render}; use emu-cru or emu-crorc"
  | other text => text

/-- How the circulation of superpages can break. -/
inductive QueueFault where
  | initial (offset : Nat)
  | popped (offset head : Nat)
  | stuck (head : Nat)
  | returning (offset : Nat)
  | draining (offset : Nat)
  | reclaimingReadout (offset : Nat)
  | reclaimingChannel (offset : Nat)
  /-- Any other break, described by its text. -/
  | other (text : String)
  deriving Repr, DecidableEq

/-- The text of a break in the circulation. -/
def QueueFault.message : QueueFault → String
  | initial offset => s!"free queue cannot hold initial offset {offset}"
  | popped offset head => s!"channel popped superpage {offset} but {head} was at the head"
  | stuck head => s!"filled superpage {head} could not be popped"
  | returning offset => s!"free queue full when returning superpage at offset {offset}"
  | draining offset => s!"free queue full when draining offset {offset}"
  | reclaimingReadout offset =>
    s!"free queue full when reclaiming offset {offset} from readout queue"
  | reclaimingChannel offset => s!"free queue full when reclaiming offset {offset} from channel"
  | other text => text

/-- What can go wrong with the memory or the files behind a buffer. -/
inductive BufferFault where
  | anonymous
  | opening (path : String)
  | sizing (path : String)
  | openingLock (path : String)
  /-- Any other fault, described by its text. -/
  | other (text : String)
  deriving Repr, DecidableEq

/-- The text of a buffer fault. -/
def BufferFault.message : BufferFault → String
  | anonymous => "anonymous mmap failed"
  | opening path => s!"failed to open {path}"
  | sizing path => s!"failed to size {path}"
  | openingLock path => s!"failed to open lock file {path}"
  | other text => text

/-- What a channel can refuse. -/
inductive ChannelFault where
  | alreadyStarted
  | resetWhileRunning
  | queueFull
  | misfit (offset size : Nat)
  /-- Any other refusal, described by its text. -/
  | other (text : String)
  deriving Repr, DecidableEq

/-- The text of a refusal of a channel. -/
def ChannelFault.message : ChannelFault → String
  | alreadyStarted => "DMA already started"
  | resetWhileRunning => "cannot reset channel while DMA is running"
  | queueFull => "superpage queue full"
  | misfit offset size => s!"superpage {offset}+{size} does not fit the buffer in whole pages"
  | other text => text

/-- What can go wrong with a file or a byte sink. -/
inductive FileFault where
  | notFound
  | notDirectory
  | isDirectory
  | nameTooLong
  | nulInName
  /-- A bounded sink takes no more bytes. -/
  | sinkFull
  /-- Any other fault, described by its text. -/
  | other (text : String)
  deriving Repr, DecidableEq

/-- The text of a file fault; the numbers are those of the operating system. -/
def FileFault.message : FileFault → String
  | notFound => "No such file or directory (os error 2)"
  | notDirectory => "Not a directory (os error 20)"
  | isDirectory => "Is a directory (os error 21)"
  | nameTooLong => "File name too long (os error 36)"
  | nulInName => "file name contained an unexpected NUL byte"
  | sinkFull => "sink full"
  | other text => text

/-- A failure of an operation. -/
inductive Error where
  /-- A configuration or a request that cannot be served. -/
  | config (fault : ConfigFault)
  /-- Something that the card cannot do. -/
  | capability (fault : CapabilityFault)
  /-- Pages of this pattern cannot be checked. -/
  | unsupportedPattern (pattern : Pattern)
  /-- The circulation of superpages is broken. -/
  | queue (fault : QueueFault)
  /-- The memory or a file behind a buffer. -/
  | buffer (fault : BufferFault)
  /-- A refusal of the channel. -/
  | channel (fault : ChannelFault)
  /-- A file or a byte sink. -/
  | file (fault : FileFault)
  deriving Repr, DecidableEq

namespace Error

/-- The text of a failure. -/
def message : Error → String
  | config fault => "invalid configuration: " ++ fault.message
  | capability fault => "unsupported by card: " ++ fault.message
  | unsupportedPattern pattern =>
    s!"error checking is not supported for the {pattern.name} pattern"
  | queue fault => "internal error: superpage queue invariant violated: " ++ fault.message
  | buffer fault => "DMA buffer error: " ++ fault.message
  | channel fault => "DMA channel error: " ++ fault.message
  | file fault => "I/O error: " ++ fault.message

/-- Whether the failure lies in the configuration. -/
def isConfig : Error → Bool
  | config _ => true
  | _ => false

/-- Whether the failure is a defect of the program itself. -/
def isInternal : Error → Bool
  | queue _ => true
  | _ => false

end Error

/-- A call outside the contract of an operation. -/
inductive Misuse where
  | tooFewSlots (slots : Nat)
  | tooManySlots
  | wordOutOfRange (index words : Nat)
  | emptySampleRange
  | instantTooLate
  deriving Repr, DecidableEq

/-- The text of a misuse. -/
def Misuse.message : Misuse → String
  | tooFewSlots slots => s!"queue needs at least 2 slots, got {slots}"
  | tooManySlots => "capacity overflow"
  | wordOutOfRange index words => s!"word {index} out of range ({words})"
  | emptySampleRange => "cannot sample empty range"
  | instantTooLate => "overflow when adding duration to instant"

/-- A chain of two stages that succeeds has two stages that succeed. -/
theorem bind_eq_ok {ε α β : Type} {x : Except ε α} {f : α → Except ε β} {b : β}
    (h : x >>= f = .ok b) : ∃ a, x = .ok a ∧ f a = .ok b := by
  cases x with
  | error e => cases h
  | ok a => exact ⟨a, rfl, h⟩

end DmaReadout
