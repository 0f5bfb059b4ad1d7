import Lox.Inspection
import Lox.Proofs.AppendedText
import Lox.Proofs.CommentMatching
import Lox.Proofs.CommentStripping
import Lox.Proofs.CommentText
import Lox.Proofs.Concatenation
import Lox.Proofs.CursorWalk
import Lox.Proofs.ErrorRecovery
import Lox.Proofs.InsertedBlanks
import Lox.Proofs.Layout
import Lox.Proofs.LimitedSinks
import Lox.Proofs.LineNumbers
import Lox.Proofs.MaximalMunch
import Lox.Proofs.ScanLoop
import Lox.Proofs.SessionHistory
import Lox.Proofs.Slices
import Lox.Proofs.TokenStream
import Lox.Proofs.WrittenLines
import Lox.Session
