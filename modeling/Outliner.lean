import Outliner.Cursor.Walk
import Outliner.Edit
import Outliner.Main
import Outliner.Proofs.Display
import Outliner.Proofs.Scan
import Outliner.Proofs.Renumbering
import Outliner.Proofs.Renumbering.Reading
import Outliner.Proofs.Renumbering.ByLine
import Outliner.Proofs.Renumbering.ByCharacter
import Outliner.Proofs.Renumbering.ByText
import Outliner.Proofs.Names
import Outliner.Proofs.Names.ByLine
import Outliner.Proofs.Renumbering.Scan
import Outliner.Proofs.Names.ByCharacter
import Outliner.Proofs.Names.ByText
import Outliner.Proofs.Names.Scan
import Outliner.Proofs.Order
import Outliner.Proofs.Order.Marks
import Outliner.Proofs.Order.Reading
import Outliner.Proofs.Order.ByLine
import Outliner.Proofs.Order.ByCharacter
import Outliner.Proofs.Order.ByText
import Outliner.Proofs.Order.Scan
import Outliner.Proofs.Checked
import Outliner.Proofs.Checked.Cursor
import Outliner.Proofs.Checked.Reading
import Outliner.Proofs.Checked.ByLine
import Outliner.Proofs.Checked.ByCharacter
import Outliner.Proofs.Checked.ByText
import Outliner.Proofs.Checked.Filing
import Outliner.Proofs.Checked.Scan
import Outliner.Proofs.Export
import Outliner.Proofs.Listing.History
import Outliner.Proofs.LastClass
import Outliner.Proofs.Once
import Outliner.Proofs.Once.Scan
import Outliner.Proofs.Layout
import Outliner.Proofs.Lines
import Outliner.Proofs.Python.Statements
import Outliner.Proofs.Nesting
import Outliner.Proofs.Python.Scopes
import Outliner.Proofs.Forest
import Outliner.Proofs.Words
import Outliner.Proofs.Python.Lexing
import Outliner.Proofs.Python.Printed
import Outliner.Proofs.Passage
import Outliner.Proofs.Braces
import Outliner.Proofs.Php.Lexing
import Outliner.Proofs.Php.OpenClass
import Outliner.Proofs.Php.Printed
import Outliner.Proofs.StyleSheet.Printed
import Outliner.Proofs.Verilog.Printed
import Outliner.Proofs.Tcl.Counting
import Outliner.Proofs.Tcl.Printed
import Outliner.Proofs.Tcl.Extents
import Outliner.Proofs.Lua.LongBrackets
import Outliner.Proofs.Python.Docstrings
import Outliner.Proofs.Python.Interior
import Outliner.Proofs.Python.Attachment
import Outliner.Proofs.Python.Operators
import Outliner.Proofs.CFamily.Masking
import Outliner.Proofs.CFamily.Keywords
import Outliner.Proofs.Php.Regions
import Outliner.Proofs.Php.Hidden
import Outliner.Proofs.Pattern
import Outliner.Proofs.Pattern.Combined
import Outliner.Proofs.CFamily.Definitions
import Outliner.Proofs.CFamily.Signatures
import Outliner.Proofs.CFamily.Attribution
import Outliner.Proofs.Comments
import Outliner.Proofs.Comments.Reader
import Outliner.Proofs.StyleSheet.Comments
import Outliner.Proofs.StyleSheet.Parts
import Outliner.Proofs.Literals
import Outliner.Proofs.StyleSheet.Literals
import Outliner.Proofs.Verilog.Tokens
import Outliner.Proofs.Comments.Scan
import Outliner.Proofs.Verilog.Moments
import Outliner.Proofs.Verilog.Bodies
import Outliner.Proofs.Verilog.Headings
import Outliner.Proofs.Verilog.Attachment
import Outliner.Proofs.Verilog.Substitutions
import Outliner.Proofs.Verilog.Owners
import Outliner.Proofs.LooksAhead
import Outliner.Proofs.Latex.Comments
import Outliner.Proofs.Latex.Arguments
import Outliner.Proofs.Sections
import Outliner.Proofs.Ini.Sections
import Outliner.Proofs.Perl.Documentation
import Outliner.Proofs.Perl.Declarations
import Outliner.Proofs.Perl.Packages
import Outliner.Proofs.Nsis.Arguments
import Outliner.Proofs.Nsis.Declarations
import Outliner.Proofs.Nsis.Comments
import Outliner.Proofs.Nsis.LetterCase
import Outliner.Proofs.Search
import Outliner.Proofs.Views
import Outliner.Proofs.Utf8
import Outliner.Proofs.Index
import Outliner.Proofs.Quoting
import Outliner.Proofs.Checked.Moves
import Outliner.Proofs.Checked.Boundaries
