import LoxLang.Main
import LoxLang.Syntax.Comparison
import LoxLang.Syntax.Printer
import LoxLang.Proofs.Machine.Agreement
import LoxLang.Proofs.Machine.ForLoop
import LoxLang.Proofs.Machine.Locality
import LoxLang.Proofs.Machine.Shadowing
import LoxLang.Proofs.Session.DigitLimit
import LoxLang.Proofs.Session.Hygiene
import LoxLang.Proofs.Session.Joined
import LoxLang.Proofs.Session.Layout
import LoxLang.Proofs.Session.LineEnds
import LoxLang.Proofs.Session.Rejection
import LoxLang.Proofs.Session.Returns
import LoxLang.Proofs.Session.Safety
import LoxLang.Proofs.Syntax.ConstructedTrees
import LoxLang.Proofs.Syntax.ParserExtension
import LoxLang.Proofs.Syntax.RelaxedPrograms
import LoxLang.Proofs.Syntax.PrintedAlike
import LoxLang.Proofs.Token.Lines
import LoxLang.Proofs.Token.MaximalMunch
import LoxLang.Proofs.Token.ScannedNumerals
import LoxLang.Proofs.Value.Arithmetic
