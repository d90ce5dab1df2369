import DmaReadout.Channel.Scripted
import DmaReadout.Main
import DmaReadout.Monitor
import DmaReadout.Proofs.Acceptance
import DmaReadout.Proofs.BufferSize
import DmaReadout.Proofs.Cards
import DmaReadout.Proofs.Conservation
import DmaReadout.Proofs.Corruption
import DmaReadout.Proofs.Draining
import DmaReadout.Proofs.Draws
import DmaReadout.Proofs.ErrorFile
import DmaReadout.Proofs.Excerpt
import DmaReadout.Proofs.Faults
import DmaReadout.Proofs.Flow
import DmaReadout.Proofs.Operations
import DmaReadout.Proofs.PageLimit
import DmaReadout.Proofs.ReadBack
import DmaReadout.Proofs.Reclaim
import DmaReadout.Proofs.Registers
import DmaReadout.Proofs.Requests
import DmaReadout.Proofs.Resync
import DmaReadout.Proofs.Scrolling
import DmaReadout.Proofs.Setbacks
import DmaReadout.Proofs.Termination
import DmaReadout.Proofs.Windows
import DmaReadout.Proofs.Writing
import DmaReadout.Text.Lossy
