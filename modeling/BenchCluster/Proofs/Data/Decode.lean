import Mathlib.Data.List.Nodup
import BenchCluster.Data.Decode
import BenchCluster.Proofs.Fallible

/-! # Decoding what has been encoded

A decoder reads an encoding back if it answers with every value whose encoding it is given. A table
with the declared fields, each once, is read as the record of its entries.
-/

namespace BenchCluster

variable {α : Type}

/-- The decoder answers with each value that it is given the encoding of. -/
def Decoder.Reads (decode : Decoder α) (encode : α → Data) : Prop :=
  ∀ a, decode (encode a) = some a

namespace Decoder

theorem below_integer {bound n : Nat} (hn : n < bound) : below bound (.integer n) = some n := by
  simp [below, hn]

namespace Reads

variable {decode : Decoder α} {encode : α → Data}

theorem text : Decoder.text.Reads .text := fun _ => rfl

theorem uint32 : Decoder.uint32.Reads fun n => .integer n.toNat := by
  intro n
  rw [Decoder.uint32, below_integer n.toNat_lt]
  simp

theorem uint16 : Decoder.uint16.Reads fun n => .integer n.toNat := by
  intro n
  rw [Decoder.uint16, below_integer n.toNat_lt]
  simp

theorem list (h : decode.Reads encode) :
    (Decoder.list decode).Reads fun l => .list (l.map encode) := by
  intro l
  have hitems : (l.map encode).mapM decode = some l := by
    rw [Fallible.mapM_eq_some, List.map_map]
    exact List.map_congr_left fun a _ => h a
  exact hitems

theorem pairs (h : decode.Reads encode) (entries : List (String × α)) :
    Decoder.pairs decode (entries.map fun e => (e.1, encode e.2)) = some entries := by
  rw [Decoder.pairs, Fallible.mapM_eq_some, List.map_map]
  exact List.map_congr_left fun e _ => by simp [h e.2]

end Reads

end Decoder

/-! ## Records -/

namespace Record

def ofEntries (entries : List (String × Data)) : Record :=
  ⟨entries.map fun e => (e.1, .given e.2)⟩

section

variable {entries : List (String × Data)}

theorem find?_of_nodup (hnodup : (entries.map Prod.fst).Nodup) {e : String × Data}
    (he : e ∈ entries) : entries.find? (fun x => x.1 = e.1) = some e := by
  cases hfind : entries.find? (fun x => x.1 = e.1) with
  | none => exact absurd (List.find?_eq_none.1 hfind e he) (by simp)
  | some x =>
    have hx : x.1 = e.1 := by simpa using List.find?_some hfind
    rw [List.inj_on_of_nodup_map hnodup (List.mem_of_find?_eq_some hfind) he hx]

theorem length_filter_of_nodup (hnodup : (entries.map Prod.fst).Nodup) (name : String) :
    (entries.filter (fun e => e.1 = name)).length ≤ 1 := by
  have hcount := List.nodup_iff_count_le_one.1 hnodup name
  rw [List.count, List.countP_map, List.countP_eq_length_filter] at hcount
  exact hcount

/-- A table with the declared fields is read as the record of its entries. -/
theorem read?_table {names : List String} (hnames : entries.map Prod.fst = names)
    (hnodup : names.Nodup) : read? false names (.table entries) = some (ofEntries entries) := by
  subst hnames
  have honce : (entries.map Prod.fst).any (fun name =>
      decide (1 < (entries.filter (fun e => e.1 = name)).length)) = false := by
    rw [List.any_eq_false]
    intro name _
    have hname := length_filter_of_nodup hnodup name
    simp only [decide_eq_true_eq]
    omega
  simp only [read?, Data.entries?, Option.bind_eq_bind, Option.bind_some, Bool.false_and]
  rw [if_neg (by simp), honce, if_neg (by simp), List.map_map]
  refine congrArg (fun fields => some (Record.mk fields)) (List.map_congr_left fun e he => ?_)
  simp [find?_of_nodup hnodup he]

theorem read?_table_bind {names : List String} {f : Record → Option α}
    (hnames : entries.map Prod.fst = names) (hnodup : names.Nodup) :
    (read? false names (.table entries) >>= f) = f (ofEntries entries) := by
  rw [read?_table hnames hnodup, Option.bind_eq_bind, Option.bind_some]

end

section

variable (entries : List (String × Data)) (name : String) (decode : Decoder α)

theorem field_ofEntries :
    (ofEntries entries).field name = ((entries.lookup name).map .given).getD .absent := by
  have hlookup : (entries.map fun e => (e.1, Field.given e.2)).lookup name =
      (entries.lookup name).map .given := by
    induction entries with
    | nil => rfl
    | cons e rest ih =>
      obtain ⟨k, x⟩ := e
      rw [List.map_cons, List.lookup_cons, List.lookup_cons, ih]
      cases name == k <;> rfl
  rw [field, ofEntries, hlookup]

theorem required_ofEntries :
    (ofEntries entries).required name decode = (entries.lookup name).elim none decode := by
  rw [required, field_ofEntries]
  cases entries.lookup name <;> rfl

theorem withDefault_ofEntries (default : α) : (ofEntries entries).withDefault name decode default =
    (entries.lookup name).elim (some default) decode := by
  rw [withDefault, field_ofEntries]
  cases entries.lookup name <;> rfl

theorem optional_ofEntries : (ofEntries entries).optional name decode =
    (entries.lookup name).elim (some none) (Decoder.optional decode) :=
  withDefault_ofEntries entries name _ none

end

end Record

end BenchCluster
