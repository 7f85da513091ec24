import Kipuka.Coap.Blockwise
import Kipuka.Coap.Canonical
import Kipuka.Coap.Paths
import Kipuka.Coap.Isolation
import Kipuka.Coap.Duplicates
import Kipuka.Coap.ResponseCache
import Kipuka.Coap.Bounds
import Kipuka.Inventory.Crl
import Kipuka.Inventory.CmpStatus
import Kipuka.Auth.OtpUses
import Kipuka.Auth.OtpGuesses
import Kipuka.Auth.CmsSigner
import Kipuka.Auth.Der
import Kipuka.Keygen.Archive
import Kipuka.Star.Terminal
import Kipuka.Star.Lives
import Kipuka.Star.Renewals
import Kipuka.Ca.KeyPolicy
import Kipuka.Ha.Recovery
import Kipuka.Ha.RoundRobin
import Kipuka.Ha.RetryQueue
import Kipuka.Ca.BackendPool
import Kipuka.Ca.Validity
import Kipuka.Ca.Pkcs11
import Kipuka.Audit.Alarm
import Kipuka.Auth.OtpExpiry
import Kipuka.Dogtag.Pool
import Kipuka.Db.Resume
import Kipuka.OtpCrate.Remaining
import Kipuka.Enroll.CmcSigner
import Kipuka.Enroll.Parity
import Kipuka.Enroll.Pbm
import Kipuka.Enroll.KeygenBody
