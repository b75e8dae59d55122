import IconCatalog.Url.Composition
import IconCatalog.Url.Mark
/-!
The two invisible joiners in host names. They are in order only where they change what is shown:
behind a sign that takes the vowel from a consonant, and, for the one that keeps letters apart,
between two letters of a cursive script that would be joined.
-/
namespace IconCatalog.Url.Joiner
open Text

/-- The neighbours that a letter of a cursive script is joined to. -/
inductive Joining where
  | none
  | previous
  | next
  | both
  /-- Marks, over which letters are joined. -/
  | transparent
  deriving DecidableEq, Repr

/-- Joining of admitted characters that are not nonspacing marks, where there is any. -/
def runs : List (Nat × Nat × Joining) :=
  [(0x620, 0x620, .both), (0x622, 0x625, .previous), (0x626, 0x626, .both),
    (0x627, 0x627, .previous), (0x628, 0x628, .both), (0x629, 0x629, .previous),
    (0x62a, 0x62e, .both), (0x62f, 0x632, .previous), (0x633, 0x63f, .both),
    (0x641, 0x647, .both), (0x648, 0x648, .previous), (0x649, 0x64a, .both),
    (0x66e, 0x66f, .both), (0x671, 0x673, .previous), (0x679, 0x687, .both),
    (0x688, 0x699, .previous), (0x69a, 0x6bf, .both), (0x6c0, 0x6c0, .previous),
    (0x6c1, 0x6c2, .both), (0x6c3, 0x6cb, .previous), (0x6cc, 0x6cc, .both),
    (0x6cd, 0x6cd, .previous), (0x6ce, 0x6ce, .both), (0x6cf, 0x6cf, .previous),
    (0x6d0, 0x6d1, .both), (0x6d2, 0x6d3, .previous), (0x6d5, 0x6d5, .previous),
    (0x6ee, 0x6ef, .previous), (0x6fa, 0x6fc, .both), (0x6ff, 0x6ff, .both),
    (0x710, 0x710, .previous), (0x712, 0x714, .both), (0x715, 0x719, .previous),
    (0x71a, 0x71d, .both), (0x71e, 0x71e, .previous), (0x71f, 0x727, .both),
    (0x728, 0x728, .previous), (0x729, 0x729, .both), (0x72a, 0x72a, .previous),
    (0x72b, 0x72b, .both), (0x72c, 0x72c, .previous), (0x72d, 0x72e, .both),
    (0x72f, 0x72f, .previous), (0x74d, 0x74d, .previous), (0x74e, 0x758, .both),
    (0x759, 0x75b, .previous), (0x75c, 0x76a, .both), (0x76b, 0x76c, .previous),
    (0x76d, 0x770, .both), (0x771, 0x771, .previous), (0x772, 0x772, .both),
    (0x773, 0x774, .previous), (0x775, 0x777, .both), (0x778, 0x779, .previous),
    (0x77a, 0x77f, .both), (0x7ca, 0x7ea, .both), (0x840, 0x840, .previous),
    (0x841, 0x845, .both), (0x846, 0x847, .previous), (0x848, 0x848, .both),
    (0x849, 0x849, .previous), (0x84a, 0x853, .both), (0x854, 0x854, .previous),
    (0x855, 0x855, .both), (0x856, 0x858, .previous), (0x860, 0x860, .both),
    (0x862, 0x865, .both), (0x867, 0x867, .previous), (0x868, 0x868, .both),
    (0x869, 0x882, .previous), (0x886, 0x886, .both), (0x889, 0x88d, .both),
    (0x88e, 0x88e, .previous), (0x88f, 0x88f, .both), (0x8a0, 0x8a9, .both),
    (0x8aa, 0x8ac, .previous), (0x8ae, 0x8ae, .previous), (0x8af, 0x8b0, .both),
    (0x8b1, 0x8b2, .previous), (0x8b3, 0x8b8, .both), (0x8b9, 0x8b9, .previous),
    (0x8ba, 0x8c8, .both), (0x1807, 0x1807, .both), (0x1820, 0x1878, .both),
    (0x1887, 0x18a8, .both), (0x18aa, 0x18aa, .both), (0xa840, 0xa871, .both),
    (0xa872, 0xa872, .next), (0x10ac0, 0x10ac4, .both), (0x10ac5, 0x10ac5, .previous),
    (0x10ac7, 0x10ac7, .previous), (0x10ac9, 0x10aca, .previous), (0x10acd, 0x10acd, .next),
    (0x10ace, 0x10ad2, .previous), (0x10ad3, 0x10ad6, .both), (0x10ad7, 0x10ad7, .next),
    (0x10ad8, 0x10adc, .both), (0x10add, 0x10add, .previous), (0x10ade, 0x10ae0, .both),
    (0x10ae1, 0x10ae1, .previous), (0x10ae4, 0x10ae4, .previous), (0x10aeb, 0x10aee, .both),
    (0x10aef, 0x10aef, .previous), (0x10b80, 0x10b80, .both), (0x10b81, 0x10b81, .previous),
    (0x10b82, 0x10b82, .both), (0x10b83, 0x10b85, .previous), (0x10b86, 0x10b88, .both),
    (0x10b89, 0x10b89, .previous), (0x10b8a, 0x10b8b, .both), (0x10b8c, 0x10b8c, .previous),
    (0x10b8d, 0x10b8d, .both), (0x10b8e, 0x10b8f, .previous), (0x10b90, 0x10b90, .both),
    (0x10b91, 0x10b91, .previous), (0x10ba9, 0x10bac, .previous), (0x10bad, 0x10bae, .both),
    (0x10d00, 0x10d00, .next), (0x10d01, 0x10d21, .both), (0x10d22, 0x10d22, .previous),
    (0x10d23, 0x10d23, .both), (0x10ec2, 0x10ec2, .previous), (0x10ec3, 0x10ec4, .both),
    (0x10ec6, 0x10ec7, .both), (0x10f30, 0x10f32, .both), (0x10f33, 0x10f33, .previous),
    (0x10f34, 0x10f44, .both), (0x10f51, 0x10f53, .both), (0x10f54, 0x10f54, .previous),
    (0x10f70, 0x10f73, .both), (0x10f74, 0x10f75, .previous), (0x10f76, 0x10f81, .both),
    (0x10fb0, 0x10fb0, .both), (0x10fb2, 0x10fb3, .both), (0x10fb4, 0x10fb6, .previous),
    (0x10fb8, 0x10fb8, .both), (0x10fb9, 0x10fba, .previous), (0x10fbb, 0x10fbc, .both),
    (0x10fbd, 0x10fbd, .previous), (0x10fbe, 0x10fbf, .both), (0x10fc1, 0x10fc1, .both),
    (0x10fc2, 0x10fc3, .previous), (0x10fc4, 0x10fc4, .both), (0x10fc9, 0x10fc9, .previous),
    (0x10fca, 0x10fca, .both), (0x10fcb, 0x10fcb, .next), (0x1e922, 0x1e943, .both),
    (0x1e94b, 0x1e94b, .transparent)]

def joiningOf (c : Char) : Joining :=
  (valueOf? runs c).getD (if isNonspacing c then .transparent else .none)

def nonJoiner : Char := '\u200c'
def joiner : Char := '\u200d'

def reaches (kinds : List Joining) (t : Text) : Bool :=
  ((t.map joiningOf).dropWhile (· = .transparent)).head?.any kinds.contains

def isInPlace (c : Char) (before behind : Text) : Bool :=
  before.head?.any (Composition.classOf · = Composition.viramaClass) ||
    (c = nonJoiner && reaches [.next, .both] before && reaches [.previous, .both] behind)

def areInPlace (before : Text) : Text → Bool
  | [] => true
  | c :: t => (!(c = nonJoiner || c = joiner) || isInPlace c before t) && areInPlace (c :: before) t

end IconCatalog.Url.Joiner
