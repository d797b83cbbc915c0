import ScopedAccess.Host.Direction
import ScopedAccess.Host.Joining
import ScopedAccess.Host.Mapping
import ScopedAccess.Host.Numeric
import ScopedAccess.Host.Punycode
import ScopedAccess.Text.Bytes
/-!
# Domains

The names of hosts, percent encoded and in characters of any script (`Host.isDomain`). A name
is a list of labels between points. A label that starts with `xn--` is encoded, and what it
stands for has to be a label that would be encoded so. A name whose last label is a number
has to be an address.

Some characters are one with the mark after them: the letter and the mark compose to another
character. An encoded label stands for a text in which nothing composes with the character before
(`isComposed`).
-/

namespace ScopedAccess

set_option autoImplicit false

/-! ## Composed characters -/

/-- For a mark, the characters that compose with it, each before what they compose to. -/
def compositions : List (Nat × String) :=
  [(0x300, "aàeèiìoòuùüǜnǹеѐиѝēḕōṑwẁâầăằêềôồơờưừyỳἀἂἁἃἐἒἑἓἠἢἡἣἰἲἱἳὀὂὁὃὐὒὑὓὠὢὡὣαὰεὲηὴιὶοὸυὺωὼϊῒϋῢ"),
   (0x301, "aáeéiíoóuúyýcćlĺnńrŕsśzźüǘgǵåǻæǽøǿϊΐαάεέηήιίϋΰοόυύωώгѓкќçḉēḗïḯkḱmḿõṍōṓpṕũṹwẃâấăắêếôố"),
   (0x301, "ơớưứἀἄἁἅἐἔἑἕἠἤἡἥἰἴἱἵὀὄὁὅὐὔὑὕὠὤὡὥ"), (0x302, "aâeêiîoôuûcĉgĝhĥjĵsŝwŵyŷzẑạậẹệọộ"),
   (0x303, "aãnñoõiĩuũvṽâẫăẵeẽêễôỗơỡưữyỹ"), (0x304, "aāeēiīoōuūüǖäǟȧǡæǣǫǭöȫõȭȯȱyȳиӣуӯgḡḷḹṛṝαᾱιῑυῡ"),
   (0x306, "aăeĕgğiĭoŏuŭийуўжӂаӑеӗȩḝạặαᾰιῐυῠ"),
   (0x307, "cċeėgġzżaȧoȯbḃdḋfḟhḣmṁnṅpṗrṙsṡśṥšṧṣṩtṫwẇxẋyẏ"),
   (0x308, "aäeëiïoöuüyÿιϊυϋеёіїаӓәӛжӝзӟиӥоӧөӫэӭуӱчӵыӹhḧõṏūṻwẅxẍtẗ"),
   (0x309, "aảâẩăẳeẻêểiỉoỏôổơởuủưửyỷ"), (0x30A, "aåuůwẘyẙ"), (0x30B, "oőuűуӳ"),
   (0x30C, "cčdďeělľnňrřsštťzžaǎiǐoǒuǔüǚgǧkǩʒǯjǰhȟ"), (0x30F, "aȁeȅiȉoȍrȑuȕѵѷ"),
   (0x311, "aȃeȇiȋoȏrȓuȗ"), (0x313, "αἀεἐηἠιἰοὀυὐωὠρῤ"), (0x314, "αἁεἑηἡιἱοὁυὑωὡρῥ"),
   (0x31B, "oơuư"), (0x323, "bḅdḍhḥkḳlḷmṃnṇrṛsṣtṭvṿwẉzẓaạeẹiịoọơợuụưựyỵ"), (0x324, "uṳ"),
   (0x325, "aḁ"), (0x326, "sștț"), (0x327, "cçgģkķlļnņrŗsştţeȩdḑhḩ"), (0x328, "aąeęiįuųoǫ"),
   (0x32D, "dḓeḙlḽnṋtṱuṷ"), (0x32E, "hḫ"), (0x330, "eḛiḭuṵ"), (0x331, "bḇdḏkḵlḻnṉrṟtṯzẕhẖ"),
   (0x338, "←↚→↛↔↮⇐⇍⇔⇎⇒⇏∃∄∈∉∋∌∣∤∥∦∼≁≃≄≅≇≈≉=≠≡≢≍≭<≮>≯≤≰≥≱≲≴≳≵≶≸≷≹≺⊀≻⊁⊂⊄⊃⊅⊆⊈⊇⊉⊢⊬⊨⊭⊩⊮⊫⊯≼⋠≽⋡⊑⋢⊒⋣⊲⋪⊳⋫"),
   (0x338, "⊴⋬⊵⋭"), (0x342, "ἀἆἁἇἠἦἡἧἰἶἱἷὐὖὑὗὠὦὡὧαᾶηῆιῖϊῗυῦϋῧωῶ"), (0x653, "اآ"),
   (0x654, "اأوؤيئەۀہۂےۓ"), (0x655, "اإ"), (0x93C, "नऩरऱळऴ"), (0x9BE, "\u09c7\u09cb"),
   (0x9D7, "\u09c7\u09cc"), (0xB3E, "\u0b47\u0b4b"), (0xB56, "\u0b47\u0b48"),
   (0xB57, "\u0b47\u0b4c"), (0xBBE, "\u0bc6\u0bca\u0bc7\u0bcb"), (0xBD7, "ஒஔ\u0bc6\u0bcc"),
   (0xC56, "\u0c46\u0c48"), (0xCC2, "\u0cc6\u0cca"),
   (0xCD5, "\u0cbf\u0cc0\u0cc6\u0cc7\u0cca\u0ccb"), (0xCD6, "\u0cc6\u0cc8"),
   (0xD3E, "\u0d46\u0d4a\u0d47\u0d4b"), (0xD57, "\u0d46\u0d4c"),
   (0xDCA, "\u0dd9\u0dda\u0ddc\u0ddd"), (0xDCF, "\u0dd9\u0ddc"), (0xDDF, "\u0dd9\u0dde"),
   (0x102E, "ဥဦ"),
   (0x1B35, "ᬅᬆᬇᬈᬉᬊᬋᬌᬍᬎᬑᬒ\u1b3a\u1b3b\u1b3c\u1b3d\u1b3e\u1b40\u1b3f\u1b41\u1b42\u1b43"),
   (0x3099, "かがきぎくぐけげこごさざしじすずせぜそぞただちぢつづてでとどはばひびふぶへべほぼうゔゝゞカガキギクグケゲコゴサザシジスズセゼソゾタダチヂツヅテデトドハバヒビフブヘベホボ"),
   (0x3099, "ウヴワヷヰヸヱヹヲヺヽヾ"), (0x309A, "はぱひぴふぷへぺほぽハパヒピフプヘペホポ"), (0x110BA, "𑂙𑂚𑂛𑂜𑂥𑂫"),
   (0x11127, "𑄱𑄮𑄲𑄯"), (0x1133E, "𑍇𑍋"), (0x11357, "𑍇𑍌"), (0x114B0, "𑒹𑒼"), (0x114BA, "𑒹𑒻"),
   (0x114BD, "𑒹𑒾"), (0x115AF, "𑖸𑖺𑖹𑖻"), (0x11930, "𑤵𑤸")]

/-- The pairs of a list, in order. -/
def pairUp {α : Type} : List α → List (α × α)
  | a :: b :: rest => (a, b) :: pairUp rest
  | _ => []

/-- Whether two characters are parts of a Korean syllable: a consonant and a vowel, or a
syllable that ends in a vowel and a consonant. -/
def isSyllable (a b : Char) : Bool :=
  let a := a.toNat
  let b := b.toNat
  (0x1100 ≤ a && a < 0x1113 && 0x1161 ≤ b && b < 0x1176) ||
    (0xAC00 ≤ a && a < 0xD7A4 && (a - 0xAC00) % 28 = 0 && 0x11A7 < b && b < 0x11C3)

/-- Whether a character composes with the one after it. -/
def composes (a b : Char) : Bool :=
  isSyllable a b ||
    compositions.any fun (mark, pairs) =>
      mark = b.toNat && ((pairUp pairs.toList).lookup a).isSome

/-- Whether no character of a text composes with the one after it. -/
def isComposed : List Char → Bool
  | a :: b :: rest => !composes a b && isComposed (b :: rest)
  | _ => true

/-! ## Labels and names -/

namespace Host

/-- Whether a character of ASCII may not stand in a name. -/
def isForbidden (c : Char) : Bool :=
  c.toNat ≤ ' '.toNat || c = '\x7f' || "#%/:<>?@[\\]^|".toList.contains c

/-- The start of encoded labels. -/
def encodedStart : List Char := "xn--".toList

/-- The greatest length of an encoded label, its start apart. -/
def maxEncoded : Nat := 2000

/-- The greatest length of a label that would have to be encoded. -/
def maxUnencoded : Nat := 1000

/-- What an encoded label stands for. -/
def decodeLabel? (cs : List Char) : Option (List Char) := do
  if cs.length ≤ maxEncoded then
    let label ← Punycode.decode? cs
    if label.all isItself && isComposed label && label.any (0x80 ≤ ·.toNat) &&
        !encodedStart.isPrefixOf label then
      some label
    else none
  else none

/-- A label as it is read. -/
def label? (cs : List Char) : Option (List Char) :=
  if encodedStart.isPrefixOf cs then decodeLabel? (cs.drop encodedStart.length)
  else if cs.any (0x80 ≤ ·.toNat) && maxUnencoded < cs.length then none
  else some cs

/-- Whether the characters of a label may follow each other as they do. -/
def isLabel (cs : List Char) : Bool := !cs.head?.any isMark && joinersFit [] cs

/-- Whether characters that stand for themselves are a name. -/
def isName (cs : List Char) : Bool :=
  cs ≠ [] && !cs.any isForbidden && (!endsInNumber cs || isShortAddress cs) &&
    ((cs.splitOn '.').mapM label?).any fun labels => labels.all isLabel && directionsFit labels

/-- Whether characters are a domain. -/
def isDomain (cs : List Char) : Bool :=
  ((Utf8.replaced (percentBytes cs)).toList.mapM standsFor?).any fun parts => isName parts.flatten

end Host

end ScopedAccess
