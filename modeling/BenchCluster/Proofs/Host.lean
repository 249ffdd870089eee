import BenchCluster.Host
import BenchCluster.Proofs.Fallible
import BenchCluster.Proofs.Text.Numeral
import BenchCluster.Proofs.Text.Split

/-! # Addresses and their ports

The port behind an address is split off again if the address has no colon of its own. An address
with several colons keeps what is behind it, also if brackets would tell the port apart.
-/

namespace BenchCluster

def writeHostPort (address : String) : Option UInt16 → String
  | none => address
  | some port => address ++ ":" ++ toString port.toNat

/-- The addresses with which a port may be written, or none: names without colons and bracketed
IPv6 addresses with any, bare IPv6 addresses with none. -/
inductive TakesPort : String → Option UInt16 → Prop
  | name {address : String} (h : ':' ∉ address.toList) (port : Option UInt16) :
    TakesPort address port
  | bracketed {inner : String} (h : 2 ≤ inner.toList.count ':') (port : Option UInt16) :
    TakesPort ("[" ++ inner ++ "]") port
  | bare {address : String} (h : 2 ≤ address.toList.count ':') : TakesPort address none

/-! ## The number of colons decides -/

theorem splitHostPort_of_not_mem {text : String} (h : ':' ∉ text.toList) :
    splitHostPort text = .ok (text, none) := by
  rw [splitHostPort, Text.splitAtLast_eq_none_iff.2 h]

theorem splitHostPort_of_two_le {text : String} (h : 2 ≤ text.toList.count ':') :
    splitHostPort text = .ok (text, none) := by
  cases hsplit : Text.splitAtLast ':' text with
  | none =>
    have hzero := List.count_eq_zero.2 (Text.splitAtLast_eq_none_iff.1 hsplit)
    omega
  | some parts =>
    obtain ⟨head, tail⟩ := parts
    obtain ⟨htext, htail⟩ := Text.splitAtLast_eq_some_iff.1 hsplit
    have hcount : text.toList.count ':' = head.toList.count ':' + 1 := by
      rw [htext]
      simp [List.count_eq_zero.2 htail]
    have hhead : Text.containsChar head ':' = true :=
      List.contains_iff_mem.2 (List.count_pos_iff.1 (by omega))
    rw [splitHostPort, hsplit]
    simp only [hhead, if_true]

theorem splitHostPort_append {head tail : String} (hhead : ':' ∉ head.toList)
    (htail : ':' ∉ tail.toList) :
    splitHostPort (head ++ ":" ++ tail) =
      (Text.readNat UInt16.size tail).map fun n => (head, some (UInt16.ofNat n)) := by
  have htext : head ++ ":" ++ tail = head ++ String.ofList (':' :: tail.toList) := by
    refine String.ext ?_
    simp
  have hnone : Text.containsChar head ':' = false := by
    simpa [Text.containsChar] using hhead
  rw [splitHostPort, htext, Text.splitAtLast_append htail]
  simp only [hnone, Bool.false_eq_true, if_false]
  cases Text.readNat UInt16.size tail <;> rfl

theorem splitHostPort_append_eq_ok_iff {head tail : String} (hhead : ':' ∉ head.toList)
    (htail : ':' ∉ tail.toList) (port : UInt16) :
    splitHostPort (head ++ ":" ++ tail) = .ok (head, some port) ↔
      Text.IsNumeral tail port.toNat := by
  rw [splitHostPort_append hhead htail, Fallible.map_eq_ok]
  constructor
  · rintro ⟨n, hread, hport⟩
    obtain ⟨hnumeral, hlt⟩ := Text.readNat_eq_ok_iff.1 hread
    obtain rfl : UInt16.ofNat n = port := by simpa using hport
    rwa [UInt16.toNat_ofNat_of_lt' hlt]
  · intro hnumeral
    refine ⟨port.toNat, Text.readNat_eq_ok_iff.2 ⟨hnumeral, port.toNat_lt_size⟩, ?_⟩
    rw [UInt16.ofNat_toNat]

theorem splitHostPort_append_eq_error_iff {head tail : String} (hhead : ':' ∉ head.toList)
    (htail : ':' ∉ tail.toList) :
    (∃ e, splitHostPort (head ++ ":" ++ tail) = .error e) ↔
      ∀ port : UInt16, ¬Text.IsNumeral tail port.toNat := by
  constructor
  · rintro ⟨e, he⟩ port hnumeral
    rw [(splitHostPort_append_eq_ok_iff hhead htail port).2 hnumeral] at he
    cases he
  · intro hnone
    cases hread : Text.readNat UInt16.size tail with
    | error e => exact ⟨e, by rw [splitHostPort_append hhead htail, hread]; rfl⟩
    | ok n =>
      obtain ⟨hnumeral, hlt⟩ := Text.readNat_eq_ok_iff.1 hread
      refine absurd ?_ (hnone (UInt16.ofNat n))
      rwa [UInt16.toNat_ofNat_of_lt' hlt]

/-! ## What is read of a written address -/

theorem TakesPort.two_le {address : String} {port : Option UInt16} (h : TakesPort address port)
    (hcolon : ':' ∈ address.toList) : 2 ≤ address.toList.count ':' := by
  cases h with
  | name hnot => exact absurd hcolon hnot
  | bracketed hinner => simpa [List.count_cons] using hinner
  | bare haddress => exact haddress

theorem TakesPort.two_le_writeHostPort {address : String} {port : Option UInt16}
    (h : TakesPort address port) (hcolon : ':' ∈ address.toList) :
    2 ≤ (writeHostPort address port).toList.count ':' := by
  have haddress := h.two_le hcolon
  cases port with
  | none => exact haddress
  | some port =>
    simp only [writeHostPort, String.toList_append, List.count_append]
    omega

/-- An address without colons is read as it has been written, and one with colons together with its
port. -/
theorem splitHostPort_writeHostPort {address : String} {port : Option UInt16}
    (h : TakesPort address port) :
    splitHostPort (writeHostPort address port) =
      .ok (if ':' ∈ address.toList then (writeHostPort address port, none)
        else (address, port)) := by
  by_cases hcolon : ':' ∈ address.toList
  · rw [if_pos hcolon, splitHostPort_of_two_le (h.two_le_writeHostPort hcolon)]
  · rw [if_neg hcolon]
    cases port with
    | none => exact splitHostPort_of_not_mem hcolon
    | some port =>
      have hnumeral := Text.isNumeral_toString port.toNat
      exact (splitHostPort_append_eq_ok_iff hcolon
        (hnumeral.not_mem (by decide) (by decide)) port).2 hnumeral

theorem splitHostPort_writeHostPort_eq_iff {address : String} {port : Option UInt16}
    (h : TakesPort address port) :
    splitHostPort (writeHostPort address port) = .ok (address, port) ↔
      port = none ∨ ':' ∉ address.toList := by
  rw [splitHostPort_writeHostPort h]
  by_cases hcolon : ':' ∈ address.toList
  · cases port <;> simp [hcolon, writeHostPort]
  · simp [hcolon]

theorem Host.ofMachine?_of_ok {defaultPort : UInt16} {m : Machine} {text address : String}
    {port : Option UInt16} (hm : m.address = some text)
    (hsplit : splitHostPort text = .ok (address, port)) :
    Host.ofMachine? defaultPort m = some ⟨m.name, address, m.user, port.getD defaultPort⟩ := by
  simp only [ofMachine?, hm, hsplit]

theorem Host.ofMachine?_of_error {defaultPort : UInt16} {m : Machine} {text : String}
    {e : Text.NumeralError} (hm : m.address = some text) (hsplit : splitHostPort text = .error e) :
    Host.ofMachine? defaultPort m = none := by
  simp only [ofMachine?, hm, hsplit]

/-- A written address is read back exactly if there is no port or if it has no colons, and else the
port stays a part of the address. A text with one colon is read only if a port is behind it. The
hosts of machines have the addresses and the ports that are read. -/
theorem host_ports_read_back_iff (text : String) :
    (∀ address port, TakesPort address port → writeHostPort address port = text →
      (splitHostPort text = .ok (address, port) ↔ port = none ∨ ':' ∉ address.toList) ∧
      (':' ∈ address.toList → splitHostPort text = .ok (text, none)) ∧
      ∀ defaultPort (m : Machine), m.address = some text →
        Host.ofMachine? defaultPort m =
          if ':' ∈ address.toList then some ⟨m.name, text, m.user, defaultPort⟩
          else some ⟨m.name, address, m.user, port.getD defaultPort⟩) ∧
    ∀ head tail : String, head ++ ":" ++ tail = text → ':' ∉ head.toList → ':' ∉ tail.toList →
      (∀ port, splitHostPort text = .ok (head, some port) ↔ Text.IsNumeral tail port.toNat) ∧
      ((∃ e, splitHostPort text = .error e) ↔
        ∀ port : UInt16, ¬Text.IsNumeral tail port.toNat) ∧
      ∀ defaultPort (m : Machine), m.address = some text →
        (∀ port : UInt16, ¬Text.IsNumeral tail port.toNat) →
          Host.ofMachine? defaultPort m = none := by
  constructor
  · rintro address port h rfl
    have hread := splitHostPort_writeHostPort h
    refine ⟨splitHostPort_writeHostPort_eq_iff h, fun hcolon => ?_, fun defaultPort m hm => ?_⟩
    · rw [hread, if_pos hcolon]
    · by_cases hcolon : ':' ∈ address.toList
      · rw [if_pos hcolon] at hread ⊢
        exact Host.ofMachine?_of_ok hm hread
      · rw [if_neg hcolon] at hread ⊢
        exact Host.ofMachine?_of_ok hm hread
  · rintro head tail rfl hhead htail
    have herror := splitHostPort_append_eq_error_iff hhead htail
    refine ⟨splitHostPort_append_eq_ok_iff hhead htail, herror, fun defaultPort m hm hnone => ?_⟩
    obtain ⟨e, he⟩ := herror.2 hnone
    exact Host.ofMachine?_of_error hm he

def Machine.sampleAt (address : String) : Machine :=
  { id := "i-1", name := "db_0", role := "db", implementation := "postgres"
    environment := "provider-us", publicAddress := some address, managed := true
    provisioned := true, ephemeral := false }

theorem host_ports_of_sample_machines :
    Host.ofMachine? 22 (.sampleAt "10.0.0.1:2222") = some ⟨"db_0", "10.0.0.1", none, 2222⟩ ∧
      Host.ofMachine? 22 (.sampleAt "[::1]:2222") = some ⟨"db_0", "[::1]:2222", none, 22⟩ ∧
      splitHostPort "[::1]:2222" ≠ .ok ("[::1]", some 2222) ∧
      Host.ofMachine? 22 (.sampleAt "db_0:ssh") = none := by
  have hname : TakesPort "10.0.0.1" (some 2222) := .name (by decide) _
  have hbracketed : TakesPort "[::1]" (some 2222) :=
    TakesPort.bracketed (show 2 ≤ "::1".toList.count ':' by decide) _
  obtain ⟨-, -, hnameHost⟩ :=
    (host_ports_read_back_iff "10.0.0.1:2222").1 _ _ hname (by decide)
  obtain ⟨hback, -, hbracketedHost⟩ :=
    (host_ports_read_back_iff "[::1]:2222").1 _ _ hbracketed (by decide)
  obtain ⟨-, -, hnone⟩ :=
    (host_ports_read_back_iff "db_0:ssh").2 "db_0" "ssh" rfl (by decide) (by decide)
  refine ⟨hnameHost 22 _ rfl, hbracketedHost 22 _ rfl, fun hread => ?_, hnone 22 _ rfl ?_⟩
  · rcases hback.1 hread with hport | hcolon
    · cases hport
    · exact hcolon (by decide)
  · rintro port ⟨digits, hne, hall, -, rfl | hplus⟩
    · exact absurd (hall 's' (by decide)) (by decide)
    · exact absurd (List.cons.inj hplus).1 (by decide)

end BenchCluster
