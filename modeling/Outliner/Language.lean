import Outliner.Language.Comment
import Outliner.Text.Path

set_option autoImplicit false

/-!
# Languages

The languages that can be outlined, each with what is known of it without reading a source: how it
is called, which file extensions it has, which tokens begin its comments.

## Main definitions

* `Outliner.Language` — the languages.
* `Outliner.Language.ofName` — the language of an identifier or a common short name.
* `Outliner.Language.ofExtension?`, `Outliner.Language.ofPath` — the language of a file.
* `Outliner.LanguageError` — why there is none.
-/

namespace Outliner

/-- A language that can be outlined. -/
inductive Language where
  /-- Python. -/
  | python
  /-- C. -/
  | c
  /-- C++. -/
  | cpp
  /-- PHP. -/
  | php
  /-- Perl. -/
  | perl
  /-- Scripts of the Bourne shell and its relatives. -/
  | shell
  /-- Tcl. -/
  | tcl
  /-- Scripts of the NSIS installer. -/
  | nsis
  /-- Verilog. -/
  | verilog
  /-- SystemVerilog. -/
  | systemVerilog
  /-- Cascading style sheets. -/
  | css
  /-- Style sheets of the Editra editor. -/
  | ess
  /-- Configuration files with sections and keys. -/
  | ini
  /-- Batch files. -/
  | batch
  /-- Lua. -/
  | lua
  /-- LaTeX. -/
  | latex
deriving DecidableEq, Repr

/-- Why no language was found. -/
inductive LanguageError where
  /-- No language has this name. -/
  | unknown (name : String)
  /-- The path has no extension, or one of no language. -/
  | undetected (path : String)
deriving DecidableEq, Repr

/-- The wording of the error. -/
def LanguageError.message : LanguageError → String
  | unknown name => "unknown language '" ++ name ++ "'"
  | undetected path => "cannot detect language of '" ++ path ++ "': no known file extension"

namespace Language

/-- All languages, in the order in which they are listed. -/
def all : List Language :=
  [python, c, cpp, php, perl, shell, tcl, nsis, verilog, systemVerilog, css, ess, ini, batch, lua,
    latex]

/-- The identifier of the language. -/
def id : Language → String
  | python => "python"
  | c => "c"
  | cpp => "cpp"
  | php => "php"
  | perl => "perl"
  | shell => "shell"
  | tcl => "tcl"
  | nsis => "nsis"
  | verilog => "verilog"
  | systemVerilog => "systemverilog"
  | css => "css"
  | ess => "ess"
  | ini => "ini"
  | batch => "batch"
  | lua => "lua"
  | latex => "latex"

/-- The name of the language in a text. -/
def displayName : Language → String
  | python => "Python"
  | c => "C"
  | cpp => "C++"
  | php => "PHP"
  | perl => "Perl"
  | shell => "Shell Script"
  | tcl => "Tcl/Tk"
  | nsis => "NSIS"
  | verilog => "Verilog"
  | systemVerilog => "SystemVerilog"
  | css => "CSS"
  | ess => "Editra Style Sheet"
  | ini => "INI"
  | batch => "DOS Batch Script"
  | lua => "Lua"
  | latex => "LaTeX"

/-- The file extensions of the language, without the dot and in lower case. -/
def extensions : Language → List String
  | python => ["py", "pyw", "pyi"]
  | c => ["c", "h"]
  | cpp => ["cc", "cpp", "cxx", "c++", "hh", "hpp", "hxx", "ipp", "inl"]
  | php => ["php", "php3", "php4", "php5", "phtml"]
  | perl => ["pl", "pm", "pod", "t"]
  | shell => ["sh", "bash", "ksh", "zsh", "csh"]
  | tcl => ["tcl", "tk", "itcl", "itk"]
  | nsis => ["nsi", "nsh"]
  | verilog => ["v", "vh"]
  | systemVerilog => ["sv", "svh"]
  | css => ["css"]
  | ess => ["ess"]
  | ini => ["ini", "cfg", "conf", "inf", "properties"]
  | batch => ["bat", "cmd"]
  | lua => ["lua"]
  | latex => ["tex", "ltx", "sty", "cls", "dtx"]

/-- The names under which the language is known beside its identifier. -/
def aliases : Language → List String
  | python => ["py", "python3"]
  | cpp => ["c++", "cxx"]
  | shell => ["sh", "bash", "zsh", "ksh"]
  | tcl => ["tk"]
  | nsis => ["nsi"]
  | systemVerilog => ["sv"]
  | ini => ["conf", "cfg", "properties"]
  | batch => ["bat", "cmd", "dos"]
  | latex => ["tex"]
  | _ => []

/-- The comment tokens of the language. -/
def comments : Language → CommentStyle
  | python | perl | shell | tcl => { line := ["#"] }
  | c | cpp | php | verilog | systemVerilog => { line := ["//"], block := some ("/*", "*/") }
  | nsis => { line := [";", "#"], block := some ("/*", "*/") }
  | css | ess => { block := some ("/*", "*/") }
  | ini => { line := [";", "#"] }
  | batch => { line := ["::", "rem ", "REM ", "Rem ", "@rem ", "@REM "] }
  | lua => { line := ["--"], block := some ("--[[", "]]") }
  | latex => { line := ["%"] }

/-- The text with its ASCII capitals made small. -/
def lowered (text : List Char) : String := String.ofList (text.map Char.toLower)

/-- The language with this identifier or alias, whatever the case of its ASCII letters and the
blanks around it. -/
def ofName (name : String) : Except LanguageError Language :=
  let word := lowered (trim name.toList)
  match all.find? fun language => language.id == word || language.aliases.contains word with
  | some language => .ok language
  | none => .error (.unknown name)

/-- The language of a file extension, whatever its case, with or without dots before it. -/
def ofExtension? (ext : String) : Option Language :=
  let word := lowered (ext.toList.dropWhile (· == '.'))
  all.find? (·.extensions.contains word)

/-- The language of the file at a path. -/
def ofPath (path : String) : Except LanguageError Language :=
  match (Path.extension? path.toList).bind fun ext => ofExtension? (String.ofList ext) with
  | some language => .ok language
  | none => .error (.undetected path)

end Language

end Outliner
