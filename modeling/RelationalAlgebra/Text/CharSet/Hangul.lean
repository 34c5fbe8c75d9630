import RelationalAlgebra.Text.CharSet

/-!
# Hangul

Korean syllables are written with one character or with a leading consonant, a vowel and perhaps a
trailing consonant.
-/
namespace RelationalAlgebra.Text.CharSet

/-- Consonants that lead a syllable. -/
def hangulLead : CharSet := ⟨[(0x1100, 0x115f), (0xa960, 0xa97c)]⟩

/-- Vowels of a syllable. -/
def hangulVowel : CharSet := ⟨[(0x1160, 0x11a7), (0xd7b0, 0xd7c6)]⟩

/-- Consonants that trail a syllable. -/
def hangulTrail : CharSet := ⟨[(0x11a8, 0x11ff), (0xd7cb, 0xd7fb)]⟩

/-- Whole syllables. They stand in groups of 28, the first of each without a trailing consonant. -/
def hangulSyllable : CharSet := ⟨[(0xac00, 0xd7a3)]⟩

end RelationalAlgebra.Text.CharSet
