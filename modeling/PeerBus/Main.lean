/-
# `PeerBus.Main` — the program

Reads the arguments, runs the memory test and reports how it ended.
-/
import PeerBus.CommandLine.MemoryTest

open PeerBus.CommandLine

/-- How the program is called. -/
def usageText : String :=
  "usage: memtest [--passes N] [--rounds N] [--window-size BYTES] [--server-id ID]\n" ++
  "               [--client-id ID] [--timeout-ms MS] [--seed N] [-v] [-h] [-V]"

/-- Runs the program. -/
def main (arguments : List String) : IO UInt32 := do
  let entropy ← IO.rand 0 0x3FFFFFFFFFFFFFFF
  let exit := perform arguments (UInt64.ofNat entropy)
  match exit with
  | .passed client server =>
      IO.println s!"memtest passed: {client.rounds} rounds"
      IO.println s!"client: {client.throughput.describe}"
      IO.println s!"server: {server.throughput.describe}"
  | .failed text => IO.eprint text
  | .misused message =>
      IO.eprintln s!"error: {message}"
      IO.eprintln usageText
  | .tooLarge => IO.eprintln "no memory for a window of this size"
  | .help => IO.println usageText
  | .version => IO.println "memtest 0.1.0"
  return exit.code
