/-! # Durations

A length of time in whole nanoseconds, and its written form: the largest unit that leaves a whole
part, with as many decimals as the value needs.
-/

namespace BenchCluster

/-- A length of time. -/
structure Duration where
  nanoseconds : Nat
  deriving DecidableEq, Repr, Inhabited

namespace Duration

def zero : Duration := ⟨0⟩

def ofMillis (n : Nat) : Duration := ⟨n * 1000000⟩

def ofSeconds (n : Nat) : Duration := ⟨n * 1000000000⟩

def toMillis (d : Duration) : Nat := d.nanoseconds / 1000000

/-- The next whole number of milliseconds, which is how long a sleep lasts. -/
def roundUp (d : Duration) : Duration := ofMillis ((d.nanoseconds + 999999) / 1000000)

instance : Add Duration := ⟨fun a b => ⟨a.nanoseconds + b.nanoseconds⟩⟩

instance : Sub Duration := ⟨fun a b => ⟨a.nanoseconds - b.nanoseconds⟩⟩

instance : Min Duration := ⟨fun a b => ⟨min a.nanoseconds b.nanoseconds⟩⟩

instance : Max Duration := ⟨fun a b => ⟨max a.nanoseconds b.nanoseconds⟩⟩

instance : LE Duration := ⟨fun a b => a.nanoseconds ≤ b.nanoseconds⟩

instance : LT Duration := ⟨fun a b => a.nanoseconds < b.nanoseconds⟩

instance (a b : Duration) : Decidable (a ≤ b) :=
  inferInstanceAs (Decidable (a.nanoseconds ≤ b.nanoseconds))

instance (a b : Duration) : Decidable (a < b) :=
  inferInstanceAs (Decidable (a.nanoseconds < b.nanoseconds))

def sum (l : List Duration) : Duration := ⟨l.foldr (fun d n => d.nanoseconds + n) 0⟩

/-- The digits after the point, without the zeros at their end. -/
def fraction (places n : Nat) : String :=
  let digits := Nat.toDigits 10 n
  let all := List.replicate (places - digits.length) '0' ++ digits
  String.ofList ((all.reverse.dropWhile (· = '0')).reverse)

/-- A multiple of a unit of 10 to the power of `places` nanoseconds. -/
def render (places n : Nat) (unit : String) : String :=
  let scale := Nat.pow 10 places
  let whole := n / scale
  let rest := n % scale
  if rest = 0 then s!"{whole}{unit}" else s!"{whole}.{fraction places rest}{unit}"

def toText (d : Duration) : String :=
  let n := d.nanoseconds
  if n ≥ 1000000000 then render 9 n "s"
  else if n ≥ 1000000 then render 6 n "ms"
  else if n ≥ 1000 then render 3 n "µs"
  else s!"{n}ns"

@[simp] theorem add_nanoseconds (a b : Duration) :
    (a + b).nanoseconds = a.nanoseconds + b.nanoseconds := rfl

theorem le_iff (a b : Duration) : a ≤ b ↔ a.nanoseconds ≤ b.nanoseconds := Iff.rfl

theorem lt_iff (a b : Duration) : a < b ↔ a.nanoseconds < b.nanoseconds := Iff.rfl

end Duration

end BenchCluster
