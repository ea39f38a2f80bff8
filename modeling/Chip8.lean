import Chip8.Main
import Chip8.Proofs.Effects
import Chip8.Proofs.Decoding
import Chip8.Proofs.Stepping
import Chip8.Operation
import Chip8.Proofs.Journals
import Chip8.Proofs.Ranges
import Chip8.Proofs.Schedule
import Chip8.Proofs.Pausing
import Chip8.Canvas
import Chip8.Proofs.Faults
import Chip8.Proofs.Restarts
import Chip8.Proofs.Painting
import Chip8.Proofs.Redraw
import Chip8.Proofs.Sessions
import Chip8.Proofs.Windowless
import Chip8.Proofs.Attempts
import Chip8.Proofs.Agreement
import Chip8.Proofs.Footprint
import Chip8.Proofs.Strictness
import Chip8.Proofs.Interference
import Chip8.Proofs.Subroutines
import Chip8.Proofs.Cycling
import Chip8.Proofs.Inputs
import Chip8.Proofs.Lookup
import Chip8.Proofs.CommandLines
import Chip8.Proofs.Reports
import Chip8.Proofs.Paths
import Chip8.Proofs.Sounding
import Chip8.Proofs.Parity
import Chip8.Proofs.Arithmetic
import Chip8.Proofs.Keys
import Chip8.Proofs.Storage
import Chip8.Proofs.ControlFlow
import Chip8.Proofs.Transfers
import Chip8.Proofs.Streams
import Chip8.Proofs.Decimals
import Chip8.Proofs.Waiting
import Chip8.Proofs.Timers
import Chip8.Proofs.Batches
import Chip8.Proofs.Loading
import Chip8.Proofs.Clients
import Chip8.Proofs.Classification
import Chip8.Proofs.Readings
import Chip8.Proofs.Disassembly
import Chip8.Proofs.Tracing
import Chip8.Proofs.Neighbours
import Chip8.Proofs.Squares
import Chip8.Proofs.Dumps
