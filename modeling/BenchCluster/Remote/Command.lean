import BenchCluster.Host
import BenchCluster.Text.Substitution

/-! # Remote commands

What is to be run on hosts, and the text that a host's shell is given for it.
-/

namespace BenchCluster

/-- A command for a set of hosts. -/
inductive RemoteCommand
  /-- A single line, the same on every host. -/
  | line (text : String)
  /-- Several lines that succeed or fail together. -/
  | script (lines : List String)
  /-- A text with placeholders for the name, the address and the user of the host. -/
  | template (text : String)
  deriving DecidableEq, Repr, Inhabited

namespace RemoteCommand

/-- The user of hosts that name none. -/
def superuser : String := "root"

def hostValues (h : Host) : List (String × String) :=
  [("name", h.name), ("address", h.address), ("user", h.user.getD superuser)]

/-- The text without the line that makes errors count. -/
def body (c : RemoteCommand) (h : Host) : String :=
  match c with
  | .line text => text
  | .script lines => "\n".intercalate lines
  | .template text => Text.fill (hostValues h) text

/-- The text that the host's shell is given. Unless errors are ignored, the first failing line
ends it. -/
def render (c : RemoteCommand) (h : Host) (ignoreErrors : Bool) : String :=
  if ignoreErrors then c.body h else "set -e\n" ++ c.body h

end RemoteCommand

end BenchCluster
