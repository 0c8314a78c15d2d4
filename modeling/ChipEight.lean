import ChipEight.Argument.Typing
import ChipEight.FileTree
import ChipEight.Main
import ChipEight.Monitor
import ChipEight.Proofs.Bursts
import ChipEight.Proofs.Faults
import ChipEight.Proofs.KeyWait
import ChipEight.Proofs.Latching
import ChipEight.Proofs.PowerCycle
import ChipEight.Proofs.Effects
import ChipEight.Proofs.CallHistory
import ChipEight.Proofs.Quirks
import ChipEight.Proofs.Watching
import ChipEight.Proofs.Protocol
import ChipEight.Proofs.Console
import ChipEight.Proofs.History
import ChipEight.Proofs.Lending
import ChipEight.Proofs.Reads
import ChipEight.Proofs.Repainting
import ChipEight.Proofs.TextScreen
import ChipEight.Proofs.Showing
import ChipEight.Proofs.Drawing
import ChipEight.Proofs.Presenting
import ChipEight.Proofs.Pixels
import ChipEight.Proofs.Interleaving
import ChipEight.Proofs.Course
import ChipEight.Proofs.Accounting
import ChipEight.Proofs.Cadence
import ChipEight.Proofs.Publishing
import ChipEight.Proofs.ExitStatus
import ChipEight.Proofs.Fronts
import ChipEight.Proofs.Grammar
import ChipEight.Proofs.Holding
import ChipEight.Proofs.ControlFlow
import ChipEight.Proofs.RegisterArithmetic
import ChipEight.Proofs.LastWrites
import ChipEight.Proofs.Forms
import ChipEight.Proofs.Redrawing
import ChipEight.Proofs.Enlarging
import ChipEight.Proofs.TextFrame
import ChipEight.Proofs.SaveRestore
