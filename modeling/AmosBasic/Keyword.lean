namespace AmosBasic

namespace Opcode

def lineEnd : UInt16 := 0x0000
def variableName : UInt16 := 0x0006
def label : UInt16 := 0x000C
def procedureCall : UInt16 := 0x0012
def labelReference : UInt16 := 0x0018
def binary : UInt16 := 0x001E
def doubleQuoted : UInt16 := 0x0026
def singleQuoted : UInt16 := 0x002E
def hexadecimal : UInt16 := 0x0036
def decimal : UInt16 := 0x003E
def float : UInt16 := 0x0046
def extension : UInt16 := 0x004E
def rem : UInt16 := 0x064A
def remQuote : UInt16 := 0x0652

end Opcode

def keywords : List (UInt16 × String) :=
  [(0x0054, " : "), (0x005C, ","), (0x0064, ";"), (0x0074, "("), (0x007C, ")"), (0x0094, " To "),
   (0x00F2, "Inkey$"), (0x012C, "Double Buffer"), (0x0246, "Next "), (0x025C, "Until "),
   (0x02C6, " Then "), (0x02A8, "Goto "), (0x02B2, "Gosub "), (0x02DA, "End If"),
   (0x0356, " Step "), (0x0360, "Return"), (0x0390, "End Proc "), (0x03AA, "Global "),
   (0x03B6, "End "), (0x040E, "Read "), (0x0418, "Restore "), (0x0426, "Break Off "),
   (0x0444, "Inc "), (0x044E, "Dec "), (0x0458, "Add "), (0x0476, "Print "), (0x04D0, "Input "),
   (0x057C, "Upper$"), (0x0598, "Str$"), (0x0640, "Dim "), (0x064A, "REM "), (0x0652, "'"),
   (0x0686, "Rnd"), (0x06D6, "Pi#"), (0x0702, "Sin"), (0x070C, "Cos"), (0x09EA, "Screen Open "),
   (0x0A04, "Screen Close "), (0x0A18, "Screen Display "), (0x0B16, "View"), (0x0BB8, "Cls "),
   (0x0C6E, "Screen "), (0x0C84, "Hires"), (0x0C90, "Lowres"), (0x0CCA, "Wait Vbl"),
   (0x0D1C, "Colour "), (0x0D34, "Flash Off"), (0x0D52, "Shift Off"), (0x0D62, "Shift Up "),
   (0x0D90, "Set Rainbow "), (0x0DD4, "Rainbow Del "), (0x0DDC, "Rainbow "), (0x0DF0, "Rain"),
   (0x0DFE, "Fade "), (0x0EC8, "Bar "), (0x0ED8, "Box "), (0x1044, "Ink "), (0x11F8, "Joy"),
   (0x1202, "Jup"), (0x120C, "Jdown"), (0x1218, "Jleft"), (0x1224, "Jright"), (0x1232, "Fire"),
   (0x1290, "Wait Key"), (0x129E, "Wait "), (0x12CE, "Timer"), (0x12F4, "Wind Open "),
   (0x131A, "Wind Close"), (0x1351, "Window "), (0x135E, "Window "), (0x1378, "Locate "),
   (0x1392, "Home"), (0x13D2, "Pen "), (0x13DC, "Paper "), (0x13E8, "Centre "),
   (0x1446, "Curs Off"), (0x14B2, "Shade On"), (0x1528, "Cdown"), (0x1540, "Cright"),
   (0x175A, "Dir$"), (0x184E, "Load "), (0x185A, "Load "), (0x19B0, "Sprite Off "),
   (0x1A26, "Spritebob Col"), (0x1A94, "Sprite "), (0x1AA8, "Bob Off"), (0x1AB6, "Bob Off "),
   (0x1B14, "Bobsprite Col"), (0x1B36, "Bob Col"), (0x1B46, "Bob Col"), (0x1B52, "Col"),
   (0x1B9E, "Bob "), (0x1BAE, "Get Sprite Palette"), (0x1BD0, "Get Sprite "),
   (0x1CFE, "Paste Bob "), (0x1D12, "Paste Icon "), (0x1D28, "Make Mask "), (0x1DE0, "Hide"),
   (0x1F94, "Channel "), (0x1FA2, "Amreg"), (0x1FBC, "Amal On "), (0x1FCA, "Amal On "),
   (0x1FD2, "Amal Off "), (0x1FE2, "Amal Off "), (0x1FEA, "Amal Freeze "),
   (0x1FFC, "Amal Freeze "), (0x2012, "Amal "), (0x2BAE, "Get Bob Palette"), (0xFF4C, " or "),
   (0xFF58, " and "), (0xFF66, "<>"), (0xFF7A, "<="), (0xFF8E, ">="), (0xFF98, "=>"),
   (0xFFA2, "="), (0xFFAC, "<"), (0xFFB6, ">"), (0xFFC0, "+"), (0xFFCA, "-"), (0xFFE2, "*"),
   (0xFFEC, "/"), (0xFFF6, "^")]

def keyword? (opcode : UInt16) : Option String :=
  keywords.lookup opcode

/-- Control keywords, each with its number of opaque words: jump distances, seeds and flags. -/
def controlKeywords : List (UInt16 × String × Nat) :=
  [(0x023C, "For ", 1), (0x0250, "Repeat", 1), (0x0268, "While ", 1), (0x027E, "Do ", 1),
   (0x02BE, "If ", 1), (0x02D0, " Else ", 1), (0x0404, "Data ", 1), (0x0290, "Exit If ", 2),
   (0x029E, "Exit ", 2), (0x0316, "On ", 2), (0x0376, "Procedure ", 4)]

def controlKeyword? (opcode : UInt16) : Option (String × Nat) :=
  controlKeywords.lookup opcode

/-- Commands of extension modules, by module and by the offset into the token table of the module. -/
def extensionCommands : List ((UInt8 × UInt16) × String) :=
  [((1, 0x002C), "Music Off"), ((1, 0x0058), "Music "), ((1, 0x0074), "Boom"), ((1, 0x00F8), "Sam Play "),
   ((1, 0x0144), "Play "), ((1, 0x0196), "Mvolume "), ((2, 0x0056), "Unpack "), ((19, 0x0028), "St Play "),
   ((19, 0x0030), "St Stop")]

def extensionCommand? (module : UInt8) (offset : UInt16) : Option String :=
  extensionCommands.lookup (module, offset)

end AmosBasic
