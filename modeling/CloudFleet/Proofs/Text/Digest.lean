import CloudFleet.Text.Blank
import CloudFleet.Text.Digest

/-!
# Digests as words

A digest is a text without blanks that is not empty, so it is the first word of a line that begins with it
(`Digest.firstWord?_digest_append`).
-/

set_option autoImplicit false

namespace CloudFleet

namespace Text

/-- A run of characters that are not blank is the first word of what begins with it and goes on with a blank. -/
theorem firstWord?_append {word : String} (hne : word.toList ≠ []) (hword : ∀ c ∈ word.toList, isBlank c = false)
    (rest : String) : firstWord? (word ++ " " ++ rest) = some word := by
  obtain ⟨c, cs, hcs⟩ := List.exists_cons_of_ne_nil hne
  have hc : isBlank c = false := hword c (by rw [hcs]; exact List.mem_cons_self)
  have hall : ∀ d ∈ c :: cs, (!isBlank d) = true := by
    intro d hd
    rw [hword d (by rw [hcs]; exact hd)]
    rfl
  have hlist : (word ++ " " ++ rest).toList = c :: (cs ++ ' ' :: rest.toList) := by
    rw [String.toList_append, String.toList_append, hcs]
    simp
  have hstart : trimStart (word ++ " " ++ rest).toList = c :: (cs ++ ' ' :: rest.toList) := by
    rw [hlist, trimStart, List.dropWhile_cons_of_neg (by simp [hc])]
  have hblank : isBlank ' ' = true := by decide
  have htake : (c :: (cs ++ ' ' :: rest.toList)).takeWhile (fun d => !isBlank d) = c :: cs := by
    rw [← List.cons_append, List.takeWhile_append_of_pos hall, List.takeWhile_cons_of_neg (by simp [hblank]),
      List.append_nil]
  unfold firstWord?
  rw [hstart]
  dsimp only
  rw [htake, ← hcs, String.ofList_toList]

/-- Hexadecimal digits are not blank. -/
theorem isBlank_hexDigit : ∀ n < 16, isBlank (hexDigit n) = false := by decide

end Text

namespace Digest

theorem isBlank_wordText (w : UInt32) : ∀ c ∈ wordText w, Text.isBlank c = false := by
  intro c hc
  obtain ⟨i, -, rfl⟩ := List.mem_map.mp hc
  exact Text.isBlank_hexDigit _ (Nat.mod_lt _ (by decide))

/-- A digest is made of words. -/
theorem toList_digest (message : ByteArray) :
    ∃ (w : UInt32) (ws : List UInt32), (digest message).toList = (w :: ws).flatMap wordText :=
  ⟨_, [_, _, _, _, _, _, _], by unfold digest; exact String.toList_ofList⟩

/-- A digest is the first word of a line that begins with it. -/
theorem firstWord?_digest_append (message : ByteArray) (rest : String) :
    Text.firstWord? (digest message ++ " " ++ rest) = some (digest message) := by
  obtain ⟨w, ws, hlist⟩ := toList_digest message
  refine Text.firstWord?_append ?_ (fun c hc => ?_) rest
  · rw [hlist, List.flatMap_cons]
    simp [wordText]
  · rw [hlist] at hc
    obtain ⟨v, -, hc⟩ := List.mem_flatMap.mp hc
    exact isBlank_wordText v c hc

end Digest

end CloudFleet
