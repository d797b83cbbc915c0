import ScopedAccess.Text.Mark
/-!
# Writing directions

Names of hosts in which letters run from right to left. All labels of such a name have to
keep one direction (`keepsDirection`): a label starts with a letter that decides it, holds
no letter of the other, and ends in a letter or a figure.

The ranges also go over characters that no name holds.
-/

namespace ScopedAccess

set_option autoImplicit false

/-- The ranges of letters that run from right to left. -/
def rightToLeftRanges : List (Nat × Nat) :=
  [(0x5BE, 0x5F4), (0x608, 0x608), (0x60B, 0x60B), (0x60D, 0x60D), (0x61B, 0x64A), (0x66D, 0x6D5),
    (0x6E5, 0x6E6), (0x6EE, 0x6EF), (0x6FA, 0x7F5), (0x7FA, 0x8C9), (0x2135, 0x2138),
    (0xFB1D, 0xFB28), (0xFB2A, 0xFC5D), (0xFC64, 0xFD3D), (0xFD50, 0xFDCE), (0xFDF0, 0xFDFC),
    (0xFE71, 0xFE71), (0xFE73, 0xFE73), (0xFE77, 0xFE77), (0xFE79, 0xFE79), (0xFE7B, 0xFE7B),
    (0xFE7D, 0xFE7D), (0xFE7F, 0xFEFC), (0x10800, 0x1091B), (0x10920, 0x10B35), (0x10B40, 0x10D23),
    (0x10D40, 0x10D8F), (0x10E80, 0x10FF6), (0x1E800, 0x1EEBB)]

/-- The ranges of Arabic figures. -/
def arabicFigureRanges : List (Nat × Nat) :=
  [(0x660, 0x669), (0x66B, 0x66C), (0x10D30, 0x10D39), (0x10E60, 0x10E7E)]

/-- The ranges of other figures. -/
def figureRanges : List (Nat × Nat) :=
  [(0x30, 0x39), (0xB2, 0xB3), (0xB9, 0xB9), (0xBC, 0xBE), (0x6F0, 0x6F9), (0x2070, 0x2070),
    (0x2074, 0x2079), (0x2080, 0x2089), (0x2150, 0x215F), (0x2189, 0x2189), (0x2460, 0x2473),
    (0x24EA, 0x24EA), (0x3251, 0x325F), (0x32B1, 0x32CB), (0x3358, 0x3370), (0x33E0, 0x33FE),
    (0xFF10, 0xFF19), (0x102E1, 0x102FB), (0x1CCF0, 0x1CCF9), (0x1D7CE, 0x1D7FF),
    (0x1F101, 0x1F10A), (0x1FBF0, 0x1FBF9)]

/-- The ranges of characters without a direction. -/
def neutralRanges : List (Nat × Nat) :=
  [(0x0, 0x2F), (0x3A, 0x40), (0x5B, 0x60), (0x7B, 0xA9), (0xAB, 0xB1), (0xB4, 0xB4), (0xB6, 0xB8),
    (0xBB, 0xBB), (0xBF, 0xBF), (0xD7, 0xD7), (0xF7, 0xF7), (0x2B9, 0x2BA), (0x2C2, 0x2CF),
    (0x2D2, 0x2DF), (0x2E5, 0x2ED), (0x2EF, 0x2FF), (0x374, 0x375), (0x37A, 0x37A), (0x37E, 0x37E),
    (0x384, 0x385), (0x387, 0x387), (0x3F6, 0x3F6), (0x58A, 0x58F), (0x606, 0x607), (0x609, 0x60A),
    (0x60C, 0x60C), (0x60E, 0x60F), (0x66A, 0x66A), (0x6DE, 0x6DE), (0x6E9, 0x6E9), (0x7F6, 0x7F9),
    (0x9F2, 0x9F3), (0x9FB, 0x9FB), (0xAF1, 0xAF1), (0xBF3, 0xBFA), (0xC78, 0xC7E), (0xE3F, 0xE3F),
    (0xF3A, 0xF3D), (0x1390, 0x1399), (0x1400, 0x1400), (0x169B, 0x169C), (0x17DB, 0x17DB),
    (0x17F0, 0x180A), (0x1940, 0x1945), (0x19DE, 0x19FF), (0x1FBD, 0x1FBD), (0x1FBF, 0x1FC1),
    (0x1FCD, 0x1FCF), (0x1FDD, 0x1FDF), (0x1FED, 0x1FEF), (0x1FFD, 0x205F), (0x207A, 0x207E),
    (0x208A, 0x208E), (0x20A0, 0x20A7), (0x20A9, 0x20C1), (0x2103, 0x2104), (0x2108, 0x2109),
    (0x2114, 0x2114), (0x2117, 0x2118), (0x211E, 0x211F), (0x2123, 0x2123), (0x2125, 0x2125),
    (0x2127, 0x2127), (0x2129, 0x2129), (0x212E, 0x212E), (0x213A, 0x213A), (0x2140, 0x2144),
    (0x214A, 0x214D), (0x218A, 0x2335), (0x237B, 0x2394), (0x2396, 0x2426), (0x2440, 0x244A),
    (0x2474, 0x24B5), (0x24EB, 0x26AB), (0x26AD, 0x27FF), (0x2900, 0x2B95), (0x2B97, 0x2BFF),
    (0x2CE5, 0x2CEA), (0x2CF9, 0x2CFF), (0x2E00, 0x2E9E), (0x2EA0, 0x2EF2), (0x3000, 0x3004),
    (0x3008, 0x3020), (0x3030, 0x3030), (0x3036, 0x3037), (0x303D, 0x303F), (0x309B, 0x309C),
    (0x30A0, 0x30A0), (0x30FB, 0x30FB), (0x31C0, 0x31E3), (0x3200, 0x3243), (0x4DC0, 0x4DFF),
    (0xA490, 0xA4C6), (0xA60D, 0xA60F), (0xA673, 0xA67F), (0xA700, 0xA721), (0xA788, 0xA788),
    (0xA828, 0xA82B), (0xA838, 0xA839), (0xA874, 0xA877), (0xAB6A, 0xAB6B), (0xFB29, 0xFB29),
    (0xFC5E, 0xFC63), (0xFD3E, 0xFD4F), (0xFDCF, 0xFDCF), (0xFDFD, 0xFE70), (0xFE72, 0xFE72),
    (0xFE74, 0xFE76), (0xFE78, 0xFE78), (0xFE7A, 0xFE7A), (0xFE7C, 0xFE7C), (0xFE7E, 0xFE7E),
    (0xFF01, 0xFF0F), (0xFF1A, 0xFF20), (0xFF3B, 0xFF40), (0xFF5B, 0xFF65), (0xFFE0, 0xFFEE),
    (0x10101, 0x10101), (0x10140, 0x1018C), (0x10190, 0x101A0), (0x1091F, 0x1091F),
    (0x10B39, 0x10B3F), (0x11052, 0x11065), (0x11660, 0x1166C), (0x11FD5, 0x11FF1),
    (0x16FE2, 0x16FE2), (0x1D1E9, 0x1D245), (0x1D300, 0x1D356), (0x1D6C1, 0x1D6C1),
    (0x1D6DB, 0x1D6DB), (0x1D6FB, 0x1D6FB), (0x1D715, 0x1D715), (0x1D735, 0x1D735),
    (0x1D74F, 0x1D74F), (0x1D76F, 0x1D76F), (0x1D789, 0x1D789), (0x1D7A9, 0x1D7A9),
    (0x1D7C3, 0x1D7C3), (0x1E2FF, 0x1E2FF), (0x1EEF0, 0x1F0F5), (0x1F10B, 0x1F12A),
    (0x1F12F, 0x1F12F), (0x1F16D, 0x1F16F), (0x1F1AD, 0x1F1AD), (0x1F240, 0x1F248),
    (0x1F260, 0x1F6D7), (0x1F6DC, 0x1F776), (0x1F77B, 0x1F8B1), (0x1F900, 0x1FA53),
    (0x1FA60, 0x1FA88), (0x1FA90, 0x1FABD), (0x1FABF, 0x1FAC5), (0x1FACE, 0x1FADB),
    (0x1FAE0, 0x1FAE8), (0x1FAF0, 0x1FBCA)]

/-- How a character is written. -/
inductive Direction where
  | left
  | right
  | arabicFigure
  | figure
  | neutral
  /-- As the character before it. -/
  | mark
  deriving DecidableEq

/-- How a character is written; letters run from left to right unless they are listed. -/
def directionOf (c : Char) : Direction :=
  if isNonspacing c then .mark
  else if inRanges rightToLeftRanges c then .right
  else if inRanges arabicFigureRanges c then .arabicFigure
  else if inRanges figureRanges c then .figure
  else if inRanges neutralRanges c then .neutral
  else .left

/-- Whether a label is written in one direction. -/
def keepsDirection (label : List Char) : Bool :=
  let all := label.map directionOf
  let last? := (all.reverse.dropWhile (· = .mark)).head?
  match all with
  | [] => true
  | .left :: _ =>
    !all.contains .right && !all.contains .arabicFigure &&
      (last? = some .left || last? = some .figure)
  | .right :: _ =>
    !all.contains .left && last? ≠ some .neutral &&
      !(all.contains .figure && all.contains .arabicFigure)
  | _ => false

/-- Whether a label has characters that run from right to left. -/
def runsLeft (label : List Char) : Bool :=
  label.any fun c => directionOf c = .right || directionOf c = .arabicFigure

/-- Whether the labels of a name keep their directions, if any of them runs from right to
left. -/
def directionsFit (labels : List (List Char)) : Bool :=
  !labels.any runsLeft || labels.all keepsDirection

end ScopedAccess
