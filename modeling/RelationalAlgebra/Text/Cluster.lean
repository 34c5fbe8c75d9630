import RelationalAlgebra.Text.CharSet.Combining
import RelationalAlgebra.Text.CharSet.Conjunct
import RelationalAlgebra.Text.CharSet.Control
import RelationalAlgebra.Text.CharSet.Hangul
import RelationalAlgebra.Text.CharSet.Pictograph

/-!
# Clusters of characters

What a reader takes for one character can be spelt with several: a letter and its accents, a Korean
syllable, two regional indicators, joined pictographs. `Text.clusters` divides a text into such
clusters. Whether two neighbours belong together depends on their kinds and sometimes on the
characters before them.
-/
namespace RelationalAlgebra.Text

/-- What matters of a character for the borders of clusters. -/
inductive CharKind where
  | carriageReturn
  | lineFeed
  | control
  | joiner
  | nonJoiner
  | linker
  | extender
  | spacingMark
  | prepended
  | lead
  | vowel
  | trail
  | openSyllable
  | closedSyllable
  | indicator
  | consonant
  | pictograph
  | other
  deriving DecidableEq, Repr

def kiratRaiVowels : CharSet := ⟨[(0x16d63, 0x16d63), (0x16d67, 0x16d6a)]⟩

namespace CharKind

def ofWide (c : Char) : CharKind :=
  if c = '\u200d' then joiner
  else if c = '\u200c' then nonJoiner
  else if CharSet.control.contains c then control
  else if CharSet.conjunctLinker.contains c then linker
  else if CharSet.graphemeExtend.contains c || CharSet.skinTone.contains c then extender
  else if CharSet.spacingMark.contains c then spacingMark
  else if CharSet.prepend.contains c then prepended
  else if CharSet.hangulLead.contains c then lead
  else if CharSet.hangulVowel.contains c || kiratRaiVowels.contains c then vowel
  else if CharSet.hangulTrail.contains c then trail
  else if CharSet.hangulSyllable.contains c then
    if (c.toNat - 0xac00) % 28 = 0 then openSyllable else closedSyllable
  else if CharSet.regionalIndicator.contains c then indicator
  else if CharSet.conjunctConsonant.contains c then consonant
  else if CharSet.extendedPictographic.contains c then pictograph
  else other

def ofChar (c : Char) : CharKind :=
  if c = '\r' then carriageReturn
  else if c = '\n' then lineFeed
  else if c.toNat < 0x20 || c.toNat = 0x7f then control
  else if c.toNat < 0x80 then other
  else ofWide c

end CharKind

/-- How far a conjunct has come: to a consonant, or to a linker behind one. -/
inductive Conjunct where
  | none
  | consonant
  | linked
  deriving DecidableEq, Repr

/-- How far joined pictographs have come: to a pictograph, or to a joiner behind one. -/
inductive Picture where
  | none
  | pictograph
  | joined
  deriving DecidableEq, Repr

/-- What matters of a cluster for the character behind it. -/
structure ClusterEnd where
  last : CharKind
  /-- The cluster ends in a regional indicator without a partner. -/
  unpaired : Bool
  conjunct : Conjunct
  picture : Picture
  deriving DecidableEq, Repr

namespace ClusterEnd

def first (k : CharKind) : ClusterEnd where
  last := k
  unpaired := k = .indicator
  conjunct := if k = .consonant then .consonant else .none
  picture := if k = .pictograph then .pictograph else .none

/-- Whether a character belongs to the cluster before it. -/
def takes (e : ClusterEnd) (k : CharKind) : Bool :=
  match e.last, k with
  | .carriageReturn, .lineFeed => true
  | .carriageReturn, _ | .lineFeed, _ | .control, _ => false
  | _, .carriageReturn | _, .lineFeed | _, .control => false
  | .lead, .lead | .lead, .vowel | .lead, .openSyllable | .lead, .closedSyllable => true
  | .openSyllable, .vowel | .openSyllable, .trail | .vowel, .vowel | .vowel, .trail => true
  | .closedSyllable, .trail | .trail, .trail => true
  | _, .joiner | _, .nonJoiner | _, .linker | _, .extender | _, .spacingMark => true
  | .prepended, _ => true
  | _, .consonant => e.conjunct = .linked
  | _, .pictograph => e.picture = .joined
  | _, .indicator => e.unpaired
  | _, _ => false

def extend (e : ClusterEnd) (k : CharKind) : ClusterEnd where
  last := k
  unpaired := k = .indicator && !(e.last = .indicator && e.unpaired)
  conjunct :=
    match k with
    | .consonant => .consonant
    | .linker => if e.conjunct = .none then .none else .linked
    | .extender | .joiner => e.conjunct
    | _ => .none
  picture :=
    match k with
    | .pictograph => .pictograph
    | .linker | .nonJoiner | .extender => if e.picture = .joined then .none else e.picture
    | .joiner => if e.picture = .pictograph then .joined else .none
    | _ => .none

end ClusterEnd

/-- The clusters of a text behind a cluster that is not complete, whose characters are given last
first. -/
def clustersAfter (e : ClusterEnd) (cluster : List Char) : List Char → List (List Char)
  | [] => [cluster.reverse]
  | c :: cs =>
    let k := CharKind.ofChar c
    if e.takes k then clustersAfter (e.extend k) (c :: cluster) cs
    else cluster.reverse :: clustersAfter (.first k) [c] cs

def clusters : List Char → List (List Char)
  | [] => []
  | c :: cs => clustersAfter (.first (CharKind.ofChar c)) [c] cs

theorem flatten_clustersAfter (e : ClusterEnd) (cluster cs : List Char) :
    (clustersAfter e cluster cs).flatten = cluster.reverse ++ cs := by
  induction cs generalizing e cluster with
  | nil => simp [clustersAfter]
  | cons c cs ih =>
    unfold clustersAfter
    simp only
    split
    · rw [ih]
      simp
    · rw [List.flatten_cons, ih]
      simp

theorem flatten_clusters (cs : List Char) : (clusters cs).flatten = cs := by
  cases cs with
  | nil => rfl
  | cons c cs => simp [clusters, flatten_clustersAfter]

end RelationalAlgebra.Text
