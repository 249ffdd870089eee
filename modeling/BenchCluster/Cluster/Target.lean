/-! # Connection targets

How clients reach the front of an installed cluster.
-/

namespace BenchCluster

structure SslMaterial where
  ca : Option String := none
  cert : Option String := none
  key : Option String := none
  deriving DecidableEq, Repr, Inhabited

/-- Where and how to connect. -/
structure ConnectionTarget where
  hosts : List String
  user : Option String := none
  password : Option String := none
  database : Option String := none
  port : Option UInt16 := none
  dialect : String
  ssl : Option SslMaterial := none
  deriving DecidableEq, Repr, Inhabited

namespace ConnectionTarget

/-- The dialect that stands for no connection. -/
def noDialect : String := "none"

/-- The target of a cluster in which no role serves connections. -/
def placeholder : ConnectionTarget := { hosts := [], dialect := noDialect }

def isPlaceholder (t : ConnectionTarget) : Bool := t.hosts.isEmpty && t.dialect = noDialect

/-- The target as a URL, without the password. -/
def toText (t : ConnectionTarget) : String :=
  if t.isPlaceholder then "<no connection>"
  else
    let user := match t.user with | some user => user ++ "@" | none => ""
    let port := match t.port with | some port => ":" ++ toString port.toNat | none => ""
    let database := match t.database with | some database => "/" ++ database | none => ""
    t.dialect ++ "://" ++ user ++ ",".intercalate t.hosts ++ port ++ database

end ConnectionTarget

end BenchCluster
