import Chip8.CommandLine.Launch
import Chip8.Machine.Action
import Chip8.Main
import Chip8.Proofs.Faults
import Chip8.Proofs.KeyWait
import Chip8.Proofs.RoundTrip
import Chip8.Proofs.Footprint
import Chip8.Proofs.Subroutine
import Chip8.Proofs.Restart
import Chip8.Proofs.Schedule
import Chip8.Proofs.Play
import Chip8.Proofs.Reads
import Chip8.Proofs.StraightLine
import Chip8.Proofs.Cells
import Chip8.Proofs.KeyFrames
import Chip8.Proofs.Crash
import Chip8.Proofs.Clocks
import Chip8.Proofs.KeyMoves
import Chip8.Proofs.Loads
import Chip8.Proofs.Timers
import Chip8.Proofs.Control
import Chip8.Proofs.KeyHistory
import Chip8.Proofs.Draws
import Chip8.Proofs.Pixels
import Chip8.Proofs.WriteOnly
import Chip8.Proofs.FontArea
import Chip8.Proofs.AssemblyText
import Chip8.Proofs.Trace
import Chip8.Proofs.LitCount
import Chip8.Proofs.DrawingBytes
import Chip8.Proofs.Torus
import Chip8.Proofs.RegisterBlocks
import Chip8.Proofs.FlagArithmetic
import Chip8.Proofs.CheckedAccess
import Chip8.Proofs.LoadedProgram
import Chip8.Proofs.Endings
import Chip8.Proofs.CommandText
import Chip8.Proofs.Verdict
import Chip8.Proofs.Skips
import Chip8.Proofs.DecimalDigits
import Chip8.Proofs.PictureText
import Chip8.Proofs.Fields
import Chip8.Proofs.HexListings
