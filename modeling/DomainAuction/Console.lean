/-!
# Console — coloured lines

Lines are keys with values and titles between rules. With colours on, each part is put between an
escape sequence that sets its colour and one that resets it. A reset inside a part would end the
colour too early, so the colour is set again behind it.
-/

namespace DomainAuction

/-- The colours by what they stand for. -/
inductive Color where
  | highlight
  | error
  | warning
  | header
  | info
  | fadedGray
  deriving DecidableEq

namespace Color

/-- The code of a colour on terminals that show any mixture of red, green and blue. -/
def mixture : Color → String
  | highlight => "38;2;255;215;87"
  | error => "38;2;255;0;45"
  | warning => "38;2;180;105;0"
  | header => "38;2;0;255;0"
  | info => "38;2;0;95;255"
  | fadedGray => "38;2;95;95;95"

/-- The code of the nearest of the sixteen colours that every terminal has. -/
def nearest : Color → String
  | highlight => "93"
  | error => "91"
  | warning => "33"
  | header => "92"
  | info => "94"
  | fadedGray => "90"

end Color

/-- How much colour a terminal shows. -/
inductive Console where
  | plain
  | sixteen
  | mixed
  deriving DecidableEq

namespace Console

/-- The console for a terminal with or without colours, and what it says about their number. -/
def ofTerminal (colored : Bool) (colorTerm : Option String) : Console :=
  if colored then
    if colorTerm = some "truecolor" ∨ colorTerm = some "24bit" then mixed else sixteen
  else plain

/-! ## Colours -/

/-- The sequence that starts a colour. -/
def start (code : String) : List Char :=
  '\x1b' :: '[' :: code.toList ++ ['m']

/-- The sequence that ends every colour. -/
def reset : List Char :=
  ['\x1b', '[', '0', 'm']

/-- A text with something put behind each of its resets. -/
def afterResets (insertion : List Char) : List Char → List Char
  | '\x1b' :: '[' :: '0' :: 'm' :: rest => reset ++ insertion ++ afterResets insertion rest
  | c :: rest => c :: afterResets insertion rest
  | [] => []

/-- A text between the sequences of a colour. -/
def painted (code : String) (text : String) : String :=
  String.ofList (start code ++ afterResets (start code) text.toList ++ reset)

/-- A text in a colour, as far as the console shows it. -/
def paint (console : Console) (color : Color) (text : String) : String :=
  match console with
  | plain => text
  | sixteen => painted color.nearest text
  | mixed => painted color.mixture text

/-! ## Lines -/

/-- A key and its value, each in a colour of its own. -/
def field (console : Console) (keyColor valueColor : Color) (key value : String) : String :=
  console.paint keyColor key ++ ": " ++ console.paint valueColor value

/-- A title between rules. -/
def title (console : Console) (text : String) : String :=
  console.paint .header ("── " ++ text ++ " ──")

/-- The lines that sum up a name and its accounts. -/
def nameAccounts (console : Console) (name nameAccount state : String) : List String :=
  [console.title name,
   console.field .info .fadedGray "Name account" nameAccount,
   console.field .info .fadedGray "Auction state" state]

/-- What is printed for some lines. -/
def printed (lines : List String) : String :=
  String.join (lines.map (· ++ "\n"))

end Console

/-- An amount of money in whole coins, with all nine places. -/
def solText (lamports : UInt64) : String :=
  let places := (toString (lamports.toNat % 1000000000)).toList.leftpad 9 '0'
  toString (lamports.toNat / 1000000000) ++ "." ++ String.ofList places ++ " SOL"

end DomainAuction
