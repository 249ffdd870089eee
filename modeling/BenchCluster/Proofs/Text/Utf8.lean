import BenchCluster.Text.Utf8
import Mathlib.Data.List.Basic

/-! # The bytes of a text spell the text -/

namespace BenchCluster.Text

theorem toList_loop (bs : ByteArray) (i : Nat) (r : List UInt8) (hi : i ≤ bs.size) :
    ByteArray.toList.loop bs i r = r.reverse ++ bs.data.toList.drop i := by
  induction hn : bs.size - i generalizing i r with
  | zero =>
    have hend : ¬ i < bs.size := by omega
    have hlength : bs.data.toList.length ≤ i := by
      rw [Array.length_toList]
      exact Nat.le_of_not_lt hend
    rw [ByteArray.toList.loop, if_neg hend, List.drop_eq_nil_of_le hlength, List.append_nil]
  | succ n ih =>
    have hlt : i < bs.size := by omega
    have hlength : i < bs.data.toList.length := by
      rw [Array.length_toList]
      exact hlt
    have hbyte : bs.get! i = bs.data.toList[i] := by
      show bs.data[i]! = _
      rw [getElem!_pos bs.data i hlt, Array.getElem_toList]
    rw [ByteArray.toList.loop, if_pos hlt, ih (i + 1) (bs.get! i :: r) hlt (by omega), hbyte,
      List.drop_eq_getElem_cons hlength]
    simp

theorem toList_eq (bs : ByteArray) : bs.toList = bs.data.toList := by
  rw [ByteArray.toList, toList_loop bs 0 [] (Nat.zero_le _)]
  rfl

theorem decode?_encode (text : String) : decode? (encode text) = some text := by
  rw [decode?, encode, toList_eq, Array.toArray_toList, String.fromUTF8?,
    String.toUTF8_eq_toByteArray, dif_pos text.isValidUTF8]
  rfl

end BenchCluster.Text
