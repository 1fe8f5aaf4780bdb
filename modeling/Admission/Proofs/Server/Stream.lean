import Mathlib
import Admission.Sandbox
import Admission.Terminal

/-!
# Streams of bytes

Input comes as bytes, and a line break is one byte. Bytes that are a text have the lines of the text, for no
other character has that byte in it.
-/

namespace Admission.Stream

def lines (bytes : List UInt8) : List Line :=
  let all := bytes.splitOn 10
  let all := if all.getLast? == some [] then all.dropLast else all
  all.map fun piece => Terminal.lineOf piece.toByteArray

def lineOfText (text : String) : Line :=
  match text.toList.reverse with
  | '\r' :: rest => .text (String.ofList rest.reverse)
  | _ => .text text

def bytesOf (cs : List Char) : List UInt8 := cs.flatMap String.utf8EncodeChar

/-! ## Characters -/

theorem eq_newline_of_mem (c : Char) (h : 10 ∈ String.utf8EncodeChar c) : c = '\n' := by
  have hbyte : ∀ n : Nat, (10 : UInt8) = UInt8.ofNat n ↔ n % 256 = 10 := by
    intro n
    rw [← UInt8.toNat_inj, UInt8.toNat_ofNat', eq_comm]
    rfl
  unfold String.utf8EncodeChar at h
  dsimp only at h
  split_ifs at h with hone
  · rw [List.mem_singleton, hbyte, Nat.mod_eq_of_lt (by omega)] at h
    exact Char.toNat_inj.mp h
  all_goals
    simp only [List.mem_cons, List.not_mem_nil, or_false, hbyte] at h
    omega

theorem bytesOf_eq_nil_iff (cs : List Char) : bytesOf cs = [] ↔ cs = [] := by
  cases cs with
  | nil => simp [bytesOf]
  | cons c cs => simp [bytesOf]

theorem fromUTF8?_bytesOf (cs : List Char) :
    String.fromUTF8? (bytesOf cs).toByteArray = some (String.ofList cs) := by
  unfold String.fromUTF8?
  rw [dif_pos ⟨cs, rfl⟩]
  congr 1

theorem lineOf_bytesOf (cs : List Char) :
    Terminal.lineOf (bytesOf cs).toByteArray = lineOfText (String.ofList cs) := by
  unfold Terminal.lineOf
  rw [fromUTF8?_bytesOf]
  rfl

/-! ## Pieces -/

theorem splitOn_append {l : List UInt8} (h : 10 ∉ l) (bytes : List UInt8) :
    (l ++ bytes).splitOn 10 = (bytes.splitOn 10).modifyHead (l ++ ·) := by
  induction l with
  | nil =>
    exact (congrFun List.modifyHead_id _).symm
  | cons byte l ih =>
    rw [List.mem_cons, not_or] at h
    rw [List.cons_append, List.splitOn_cons_eq_if_modifyHead, if_neg (by simpa using Ne.symm h.1),
      ih h.2, List.modifyHead_modifyHead]
    rfl

theorem splitOn_bytesOf (cs : List Char) :
    (bytesOf cs).splitOn 10 = (Text.pieces '\n' cs).map bytesOf := by
  induction cs with
  | nil => rfl
  | cons c cs ih =>
    have hcons : bytesOf (c :: cs) = String.utf8EncodeChar c ++ bytesOf cs := List.flatMap_cons
    obtain ⟨piece, others, hpieces⟩ := List.exists_cons_of_ne_nil (Text.pieces_ne_nil '\n' cs)
    rw [hcons]
    unfold Text.pieces
    split_ifs with hbreak
    · obtain rfl := eq_of_beq hbreak
      rw [List.map_cons, ← ih]
      exact List.splitOn_cons_eq_if_modifyHead _ _
    · have hnot : 10 ∉ String.utf8EncodeChar c := by
        intro hmem
        exact hbreak (beq_iff_eq.mpr (eq_newline_of_mem c hmem))
      rw [splitOn_append hnot, ih, hpieces]
      rfl

/-- The lines of the bytes of a text are the lines of the text. -/
theorem lines_bytesOf (text : String) : lines (bytesOf text.toList) = linesOf text := by
  have hlast : ((Text.pieces '\n' text.toList).map bytesOf).getLast? = some [] ↔
      (Text.pieces '\n' text.toList).getLast? = some [] := by
    rw [List.getLast?_map, Option.map_eq_some_iff]
    simp [bytesOf_eq_nil_iff]
  unfold lines linesOf Text.lines
  rw [splitOn_bytesOf]
  simp only [beq_iff_eq, hlast]
  split_ifs
  · rw [← List.map_dropLast, List.map_map, List.map_map]
    exact List.map_congr_left fun cs _ => lineOf_bytesOf cs
  · rw [List.map_map, List.map_map]
    exact List.map_congr_left fun cs _ => lineOf_bytesOf cs

end Admission.Stream
